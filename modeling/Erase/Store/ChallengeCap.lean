import Erase.Store.ProofOfWork

namespace Store

open Server Server.Lua Valkey Script

def issuedLease (now : Nat) (config : Config) : Lease where
  expires := now / 1000 + config.challengeSeconds
  bits := config.powBits
  expireAt := now + 1000 * config.challengeSeconds

-- What one event does to the leases, their index and the spent challenges.
inductive LeaseStep (now : Nat) (ledger : Ledger) : Event → List Answer → Ledger → Prop where
  | kept {event answers ledger'} (hleases : ledger'.leases = ledger.leases)
      (hspent : ledger'.spent = ledger.spent)
      (hindex : ledger'.challenges = ledger.challenges
        ∨ ledger'.challenges = (ledger.swept (now / 1000)).challenges)
    : LeaseStep now ledger event answers ledger'
  | faded {key ledger'} (hfaded : Faded now ledger ledger')
    : LeaseStep now ledger (.expire key) [] ledger'
  | issued {denied config token ledger'}
      (hroom : FiniteMap.size (ledger.swept (now / 1000)).challenges < config.maxChallenges)
      (hnew : ledger.leases token = none)
      (hleases : ledger'.leases
        = Function.update ledger.leases token (some (issuedLease now config)))
      (hspent : ledger'.spent = ledger.spent)
      (hindex : ledger'.challenges = (ledger.swept (now / 1000)).challenges.insert token
        (issuedLease now config).expires)
    : LeaseStep now ledger (.call denied (.issue config token))
        [{
          time := now, request := .issue config token,
          reply := some (.ok [tostring (issuedLease now config).expires]) }] ledger'
  | spent {denied config packet token lease parts ledger'}
      (hproven : Proven { now, denied } ledger token lease)
      (hleases : ledger'.leases = Function.update ledger.leases token none)
      (hspent : ledger'.spent = Function.update ledger.spent token (some (1000 * lease.expires)))
      (hindex : ledger'.challenges = ledger.challenges
        ∨ ledger'.challenges = ledger.challenges.erase token)
    : LeaseStep now ledger (.call denied (.create config packet token))
        [{ time := now, request := .create config packet token, reply := some (.ok parts) }] ledger'

section

variable {now : Nat} {ledger ledger' : Ledger} {event : Event} {answers : List Answer}

theorem LeaseStep.of_shrinks (h : Shrinks ledger ledger')
    : LeaseStep now ledger event answers ledger' :=
  .kept h.leases h.spent (.inl h.challenges)

theorem leaseStep_of_accessed {denied : Site → Bool} {id hash : Bytes} {operation : Operation}
    {reply : Option Reply} (h : Accessed { now, denied } ledger id hash operation reply ledger')
    : LeaseStep now ledger event answers ledger' := by
  cases h with
  | expired _ _ hreleased => exact .of_shrinks hreleased.shrinks
  | exhausted _ _ _ _ hreleased => exact .of_shrinks hreleased.shrinks
  | deleted _ _ _ _ hreleased => exact .of_shrinks hreleased.shrinks
  | openedLast _ _ _ _ hreleased => exact .of_shrinks hreleased.shrinks
  | _ => exact .kept rfl rfl (.inl rfl)

theorem leaseStep_of_created {denied : Site → Bool} {config : Config} {packet : Packet}
    {token : Bytes} {reply : Option Reply}
    (h : Created { now, denied } ledger (createArgs config packet token) reply ledger')
    : LeaseStep now ledger (.call denied (.create config packet token))
        [{ time := now, request := .create config packet token, reply }] ledger' := by
  cases h with
  | reused => exact .kept rfl rfl (.inl rfl)
  | unproven => exact .kept rfl rfl (.inl rfl)
  | aborted _ hreaped => exact .of_shrinks hreaped.shrinks
  | conflict _ hreaped => exact .of_shrinks hreaped.shrinks
  | full _ hreaped => exact .of_shrinks hreaped.shrinks
  | rolledBack hproven hreaped =>
    have hunspent : Ledger.spent _ token = none := hreaped.shrinks.spent ▸ hproven.unspent
    exact .of_shrinks (hreaped.shrinks.trans (Ledger.shrinks_rolledBack _ hunspent))
  | recorded hproven hreaped =>
    refine .spent hproven ?_ ?_ ?_
    . simp only [Ledger.recorded, hreaped.shrinks.leases]
      rfl
    . simp only [Ledger.recorded, hreaped.shrinks.spent]
      rfl
    . simp only [Ledger.recorded, hreaped.shrinks.challenges]
      split
      . exact .inl rfl
      . exact .inr rfl

theorem leaseStep_of_transition (h : Transition now ledger event answers ledger')
    : LeaseStep now ledger event answers ledger' := by
  cases h with
  | tick => exact .kept rfl rfl (.inl rfl)
  | expire => exact .faded (faded_expire now ledger _)
  | call hcalled =>
    cases hcalled with
    | issue hissued =>
      cases hissued with
      | aborted => exact .kept rfl rfl (.inl rfl)
      | refused => exact .kept rfl rfl (.inr rfl)
      | issued hroom hnew => exact .issued hroom hnew rfl rfl rfl
    | inspectProof => exact .kept rfl rfl (.inl rfl)
    | create hcreated => exact leaseStep_of_created hcreated
    | access haccessed => exact leaseStep_of_accessed haccessed
    | reap hswept =>
      cases hswept with
      | aborted hreaped => exact .of_shrinks hreaped.shrinks
      | swept hreaped =>
        refine .kept hreaped.shrinks.leases hreaped.shrinks.spent (.inr ?_)
        simp only [Ledger.swept, Ledger.setChallenges, hreaped.shrinks.challenges]

end

-- Every lease that is not over has its entry, and the entries stay below the cap.
structure Capped (cap now : Nat) (ledger : Ledger) : Prop where
  entry : ∀ token lease, ledger.leases token = some lease → now / 1000 < lease.expires
    → ledger.challenges.lookup token = some lease.expires
  size : FiniteMap.size ledger.challenges ≤ cap
  native : ∀ token lease, ledger.leases token = some lease
    → 1000 * lease.expires ≤ lease.expireAt ∧ lease.expireAt < 1000 * (lease.expires + 1)

def FixedCap (cap : Nat) : Event → Prop
  | .call _ (.issue config _) => config.maxChallenges = cap
  | _ => True

theorem size_filterValues_le (p : Nat → Bool) (m : FiniteMap Bytes Nat)
    : FiniteMap.size (m.filterValues p) ≤ FiniteMap.size m :=
  Multiset.card_le_card (Multiset.filter_le _ _)

theorem size_insert_le (m : FiniteMap Bytes Nat) (token : Bytes) (score : Nat)
    : FiniteMap.size (m.insert token score) ≤ FiniteMap.size m + 1 := by
  by_cases h : token ∈ m
  . rcases Finmap.mem_iff.mp h with ⟨old, hold⟩
    have hinsert : m.insert token score = (m.erase token).insert token score := by
      apply Finmap.ext_lookup
      intro other
      rw [FiniteMap.lookup_insert_ite, FiniteMap.lookup_insert_ite, FiniteMap.lookup_erase_ite]
      split <;> rfl
    rw [hinsert, FiniteMap.size_insert Finmap.notMem_erase_self]
    exact Nat.succ_le_succ (FiniteMap.size_erase_le m token)
  . exact (FiniteMap.size_insert h).le

section

variable {cap now : Nat} {ledger ledger' : Ledger}

theorem lookup_swept {token : Bytes} {score : Nat} (h : ledger.challenges.lookup token = some score)
    (hlive : now / 1000 < score)
    : (ledger.swept (now / 1000)).challenges.lookup token = some score := by
  simp only [Ledger.swept, Ledger.setChallenges, FiniteMap.lookup_filterValues, h]
  simp [Option.filter, hlive]

theorem size_swept_le
    : FiniteMap.size (ledger.swept (now / 1000)).challenges ≤ FiniteMap.size ledger.challenges :=
  size_filterValues_le _ _

theorem Capped.of_leaseStep {event : Event} {answers : List Answer} (h : Capped cap now ledger)
    (hfixed : FixedCap cap event) (hstep : LeaseStep now ledger event answers ledger')
    : Capped cap now ledger' := by
  cases hstep with
  | kept hleases hspent hindex =>
    refine ⟨fun token lease hlease hlive => ?_, ?_, fun token lease hlease => ?_⟩
    . rw [hleases] at hlease
      have hentry := h.entry token lease hlease hlive
      rcases hindex with hsame | hswept
      . rw [hsame, hentry]
      . rw [hswept, lookup_swept hentry hlive]
    . rcases hindex with hsame | hswept
      . exact hsame ▸ h.size
      . exact hswept ▸ size_swept_le.trans h.size
    . exact h.native token lease (hleases ▸ hlease)
  | faded hfaded =>
    have hleased : ∀ token lease, ledger'.leases token = some lease
        → ledger.leases token = some lease := by
      intro token lease hlease
      rcases hfaded.leases token with hsame | ⟨hgone, -⟩
      . rwa [hsame] at hlease
      . rw [hgone] at hlease
        cases hlease
    refine ⟨fun token lease hlease hlive => ?_, ?_, fun token lease hlease => ?_⟩
    . rw [hfaded.challenges]
      exact h.entry token lease (hleased token lease hlease) hlive
    . exact hfaded.challenges ▸ h.size
    . exact h.native token lease (hleased token lease hlease)
  | @issued denied config token ledger' hroom hnew hleases hspent hindex =>
    have hcap : config.maxChallenges = cap := hfixed
    refine ⟨fun other lease hlease hlive => ?_, ?_, fun other lease hlease => ?_⟩
    . rw [hindex, FiniteMap.lookup_insert_ite]
      rw [hleases, Function.update_apply] at hlease
      split at hlease
      . next heq =>
        cases hlease
        rw [if_pos heq]
      . next hne =>
        rw [if_neg hne]
        exact lookup_swept (h.entry other lease hlease hlive) hlive
    . have hsize := size_insert_le (ledger.swept (now / 1000)).challenges token
        (issuedLease now config).expires
      rw [hindex]
      omega
    . rw [hleases, Function.update_apply] at hlease
      split at hlease
      . cases hlease
        simp only [issuedLease]
        omega
      . exact h.native other lease hlease
  | @spent denied config packet token proof parts ledger' hproven hleases hspent hindex =>
    have hleased : ∀ other lease, ledger'.leases other = some lease
        → other ≠ token ∧ ledger.leases other = some lease := by
      intro other lease hlease
      rw [hleases, Function.update_apply] at hlease
      split at hlease
      . cases hlease
      . next hne => exact ⟨hne, hlease⟩
    refine ⟨fun other lease hlease hlive => ?_, ?_, fun other lease hlease => ?_⟩
    . rcases hleased other lease hlease with ⟨hne, hlease⟩
      have hentry := h.entry other lease hlease hlive
      rcases hindex with hsame | herased
      . rw [hsame, hentry]
      . rw [herased, Finmap.lookup_erase_ne hne, hentry]
    . rcases hindex with hsame | herased
      . exact hsame ▸ h.size
      . exact herased ▸ (FiniteMap.size_erase_le _ _).trans h.size
    . exact h.native other lease (hleased other lease hlease).2

theorem Capped.mono {later : Nat} (h : Capped cap now ledger) (hle : now ≤ later)
    : Capped cap later ledger where
  entry token lease hlease hlive :=
    h.entry token lease hlease (lt_of_le_of_lt (Nat.div_le_div_right hle) hlive)
  size := h.size
  native := h.native

theorem capped_empty (cap now : Nat) : Capped cap now .empty where
  entry _ _ hlease := nomatch hlease
  size := Nat.zero_le _
  native _ _ hlease := nomatch hlease

end

def Issues (token : Bytes) : Event → Prop
  | .call _ (.issue _ other) => other = token
  | _ => False

def Spends (token : Bytes) (answer : Answer) : Prop :=
  (∃ config packet, answer.request = .create config packet token) ∧ answer.succeeded = true

section

variable {now : Nat} {ledger ledger' : Ledger} {event : Event} {answers : List Answer}
  {token : Bytes} {lease : Lease}

structure Fresh (token : Bytes) (ledger : Ledger) : Prop where
  unleased : ledger.leases token = none
  unspent : ledger.spent token = none

theorem Fresh.of_leaseStep (h : Fresh token ledger) (hevent : ¬Issues token event)
    (hstep : LeaseStep now ledger event answers ledger') : Fresh token ledger' := by
  cases hstep with
  | kept hleases hspent => exact ⟨hleases ▸ h.unleased, hspent ▸ h.unspent⟩
  | faded hfaded =>
    constructor
    . rcases hfaded.leases token with hsame | ⟨hgone, -⟩
      . exact hsame ▸ h.unleased
      . exact hgone
    . rcases hfaded.spent token with hsame | ⟨hgone, -⟩
      . exact hsame ▸ h.unspent
      . exact hgone
  | @issued denied config other ledger' hroom hnew hleases hspent =>
    have hne : token ≠ other := fun heq => hevent heq.symm
    refine ⟨?_, hspent ▸ h.unspent⟩
    rw [hleases, Function.update_of_ne hne]
    exact h.unleased
  | @spent denied config packet other lease parts ledger' hproven hleases hspent =>
    have hne : token ≠ other := by
      rintro rfl
      exact nomatch h.unleased.symm.trans hproven.leased
    refine ⟨?_, ?_⟩
    . rw [hleases, Function.update_of_ne hne]
      exact h.unleased
    . rw [hspent, Function.update_of_ne hne]
      exact h.unspent

-- The challenge is still good for a proof, unless its time is over.
def Open (token : Bytes) (lease : Lease) (now : Nat) (ledger : Ledger) : Prop :=
  now < 1000 * lease.expires → ledger.leases token = some lease ∧ ledger.spent token = none

theorem Open.of_leaseStep (h : Open token lease now ledger)
    (hnative : 1000 * lease.expires ≤ lease.expireAt)
    (hunspent : ∀ answer ∈ answers, ¬Spends token answer)
    (hstep : LeaseStep now ledger event answers ledger') : Open token lease now ledger' := by
  intro hlive
  rcases h hlive with ⟨hleased, hfree⟩
  cases hstep with
  | kept hleases hspent => exact ⟨hleases ▸ hleased, hspent ▸ hfree⟩
  | faded hfaded =>
    constructor
    . rcases hfaded.leases token with hsame | ⟨-, old, hold, hover⟩
      . exact hsame ▸ hleased
      . cases hleased.symm.trans hold
        omega
    . rcases hfaded.spent token with hsame | ⟨hgone, -⟩
      . exact hsame ▸ hfree
      . exact hgone
  | @issued denied config other ledger' hroom hnew hleases hspent =>
    have hne : token ≠ other := by
      rintro rfl
      exact nomatch hnew.symm.trans hleased
    refine ⟨?_, hspent ▸ hfree⟩
    rw [hleases, Function.update_of_ne hne]
    exact hleased
  | @spent denied config packet other proof parts ledger' hproven hleases hspent =>
    have hne : token ≠ other := by
      rintro rfl
      exact hunspent _ List.mem_cons_self ⟨⟨config, packet, rfl⟩, rfl⟩
    refine ⟨?_, ?_⟩
    . rw [hleases, Function.update_of_ne hne]
      exact hleased
    . rw [hspent, Function.update_of_ne hne]
      exact hfree

end

-- `inspect_proof` accepts the challenge.
def Inspects (cache : Cache) (token : Bytes) (bits : Bytes) : Prop :=
  ((inspectProof token).run { now := cache.now, denied := allowAll } cache.keys).1
    = some (.ok [bits])

-- `create` gets past its check of the challenge.
def PassesProof (cache : Cache) (args : CreateArgs) : Prop :=
  let reply := ((create args).run { now := cache.now, denied := allowAll } cache.keys).1
  reply ≠ some .proofReused ∧ reply ≠ some .proofInvalid

section

variable {now : Nat} {ledger : Ledger} {token : Bytes}

theorem inspects_of_proven {lease : Lease} (h : Proven { now, denied := allowAll } ledger token lease)
    : Inspects (ledger.cache now) token (tostring lease.bits) := by
  rcases run_inspectProof { now, denied := allowAll } ledger token with ⟨reply, hrun, hinspected⟩
  cases hinspected with
  | reused hspent => exact absurd h.unspent hspent
  | unproven _ hinvalid => exact absurd h (hinvalid lease)
  | @proven other hproven =>
    cases h.leased.symm.trans hproven.leased
    simp only [Inspects, Ledger.cache, hrun]

theorem exists_inspects_iff : (∃ bits, Inspects (ledger.cache now) token bits)
    ↔ ∃ lease, Proven { now, denied := allowAll } ledger token lease := by
  constructor
  . rintro ⟨bits, hbits⟩
    rcases run_inspectProof { now, denied := allowAll } ledger token with ⟨reply, hrun, hinspected⟩
    simp only [Inspects, Ledger.cache, hrun] at hbits
    cases hinspected with
    | reused => cases hbits
    | unproven => cases hbits
    | proven hproven => exact ⟨_, hproven⟩
  . rintro ⟨lease, hproven⟩
    exact ⟨_, inspects_of_proven hproven⟩

theorem passesProof_iff {args : CreateArgs} : PassesProof (ledger.cache now) args
    ↔ ∃ lease, Proven { now, denied := allowAll } ledger args.challenge lease := by
  rcases run_create { now, denied := allowAll } ledger args with ⟨reply, ledger', hrun, hcreated⟩
  have hpasses : PassesProof (ledger.cache now) args
      ↔ reply ≠ some .proofReused ∧ reply ≠ some .proofInvalid := by
    simp only [PassesProof, Ledger.cache, hrun]
  rw [hpasses]
  cases hcreated with
  | reused hspent => simpa using fun lease hproven => hspent (Proven.unspent hproven)
  | unproven _ hinvalid => simpa using hinvalid
  | aborted hproven => simpa using ⟨_, hproven⟩
  | conflict hproven => simpa using ⟨_, hproven⟩
  | full hproven => simpa using ⟨_, hproven⟩
  | rolledBack hproven => simpa using ⟨_, hproven⟩
  | recorded hproven => simpa using ⟨_, hproven⟩

end

theorem run_split {cache last : Cache} {before after : List Event} {event : Event}
    {answers : List Answer} (hrun : cache.run (before ++ event :: after) = (last, answers))
    : ∃ rest, ((cache.run before).1.step event).1.run after = (last, rest)
        ∧ ∀ answer ∈ rest, answer ∈ answers := by
  induction before generalizing cache answers with
  | nil =>
    rw [List.nil_append, Cache.run] at hrun
    cases hrun
    exact ⟨_, rfl, fun answer hmem => List.mem_append_right _ hmem⟩
  | cons first before ih =>
    rw [List.cons_append, Cache.run] at hrun
    cases hrun
    rcases ih Prod.mk.eta.symm with ⟨rest, hrest, hmem⟩
    exact ⟨rest, hrest, fun answer hanswer => List.mem_append_right _ (hmem answer hanswer)⟩

theorem run_capped {cap start : Nat} {last : Cache} {events : List Event} {answers : List Answer}
    (hrun : (Cache.empty start).run events = (last, answers))
    (hfixed : ∀ event ∈ events, FixedCap cap event)
    : ∃ ledger, last = Ledger.cache ledger last.now ∧ Capped cap last.now ledger := by
  rcases run_empty_invariant (FixedCap cap) (fun now ledger _ => Capped cap now ledger) hrun
    (capped_empty cap start) (fun h hevent htransition =>
      (h.of_leaseStep hevent (leaseStep_of_transition htransition)).mono (Nat.le_add_right _ _))
    hfixed with ⟨ledger, hkeys, hcapped⟩
  exact ⟨ledger, by rw [Ledger.cache, ← hkeys], hcapped⟩

theorem open_of_issued {start : Nat} {before : List Event} {denied : Site → Bool} {config : Config}
    {token : Bytes} (hdistinct : ∀ event ∈ before, ¬Issues token event)
    (hok : (((Cache.empty start).run before).1.step (.call denied (.issue config token))).2.all
      Answer.succeeded = true)
    : ∃ ledger, (((Cache.empty start).run before).1.step (.call denied (.issue config token))).1
          = Ledger.cache ledger ((Cache.empty start).run before).1.now
        ∧ Open token (issuedLease ((Cache.empty start).run before).1.now config)
            ((Cache.empty start).run before).1.now ledger := by
  rcases run_empty_invariant (fun event => ¬Issues token event)
    (fun _ ledger _ => Fresh token ledger) Prod.mk.eta.symm ⟨rfl, rfl⟩
    (fun h hevent htransition => h.of_leaseStep hevent (leaseStep_of_transition htransition))
    hdistinct with ⟨ledger, hkeys, hfresh⟩
  rcases (⟨_, _, rfl⟩ : ∃ next answer, ((Cache.empty start).run before).1.step
    (.call denied (.issue config token)) = (next, [answer])) with ⟨next, answer, hstep⟩
  rcases step_call hkeys hstep with ⟨ledger', hnext, -, -, hcalled⟩
  rw [hstep] at hok ⊢
  simp only [List.all_cons, List.all_nil, Bool.and_true, Answer.succeeded] at hok
  generalize answer.reply = reply at hok hcalled
  cases hcalled with
  | issue hissued =>
    refine ⟨ledger', hnext, fun _ => ?_⟩
    cases hissued with
    | aborted => cases hok
    | refused => cases hok
    | issued => exact ⟨Function.update_self _ _ _, hfresh.unspent⟩

theorem run_open {token : Bytes} {lease : Lease} {now : Nat} {ledger : Ledger} {last : Cache}
    {events : List Event} {answers : List Answer} (hnative : 1000 * lease.expires ≤ lease.expireAt)
    (hopen : Open token lease now ledger) (hrun : (ledger.cache now).run events = (last, answers))
    (hunspent : ∀ answer ∈ answers, ¬Spends token answer)
    : ∃ ledger', last = Ledger.cache ledger' last.now ∧ Open token lease last.now ledger' := by
  have hstep : ∀ {now ledger answers event new ledger'},
      ((∀ answer ∈ answers, ¬Spends token answer) → Open token lease now ledger) → True
      → Transition now ledger event new ledger'
      → (∀ answer ∈ answers ++ new, ¬Spends token answer)
      → Open token lease (now + Event.elapsed event) ledger' := by
    intro now ledger answers event new ledger' h _ htransition hunspent hlate
    rw [List.forall_mem_append] at hunspent
    exact (h hunspent.1).of_leaseStep hnative hunspent.2 (leaseStep_of_transition htransition)
      (lt_of_le_of_lt (Nat.le_add_right _ _) hlate)
  rcases run_invariant (fun _ => True) (fun now ledger answers =>
    (∀ answer ∈ answers, ¬Spends token answer) → Open token lease now ledger) hrun rfl
    (fun _ => hopen) hstep (fun _ _ => trivial) with ⟨ledger', hkeys, hlast⟩
  exact ⟨ledger', by rw [Ledger.cache, ← hkeys], hlast hunspent⟩

theorem challenges_capped {cap start : Nat} {last : Cache} {events : List Event}
    {answers : List Answer} (hrun : (Cache.empty start).run events = (last, answers))
    (hfixed : ∀ event ∈ events, FixedCap cap event)
    : ∃ ledger, last = Ledger.cache ledger last.now
        ∧ (∀ token, (∃ bits, Inspects last token bits)
          ↔ ∃ lease, Proven { now := last.now, denied := allowAll } ledger token lease)
        ∧ (∀ args, PassesProof last args ↔ ∃ bits, Inspects last args.challenge bits)
        ∧ (∀ token lease, Proven { now := last.now, denied := allowAll } ledger token lease
          → ledger.challenges.lookup token = some lease.expires)
        ∧ FiniteMap.size ledger.challenges ≤ cap
        ∧ (∀ tokens : List Bytes, tokens.Nodup → (∀ token ∈ tokens, ∃ bits, Inspects last token bits)
          → tokens.length ≤ cap)
        ∧ (∀ token lease, ledger.leases token = some lease
          → 1000 * lease.expires ≤ lease.expireAt ∧ lease.expireAt < 1000 * (lease.expires + 1))
        ∧ ∀ before denied config token after,
          events = before ++ .call denied (.issue config token) :: after
          → (∀ event ∈ before, ¬Issues token event)
          → (((Cache.empty start).run before).1.step (.call denied (.issue config token))).2.all
            Answer.succeeded = true
          → (∀ answer ∈ answers, ¬Spends token answer)
          → last.now / 1000
            < ((Cache.empty start).run before).1.now / 1000 + config.challengeSeconds
          → Inspects last token (tostring config.powBits) := by
  rcases run_capped hrun hfixed with ⟨ledger, hlast, hcapped⟩
  have hinspects : ∀ token, (∃ bits, Inspects last token bits)
      ↔ ∃ lease, Proven { now := last.now, denied := allowAll } ledger token lease := by
    intro token
    rw [hlast]
    exact exists_inspects_iff
  have hentry : ∀ token lease, Proven { now := last.now, denied := allowAll } ledger token lease
      → ledger.challenges.lookup token = some lease.expires :=
    fun token lease hproven => hcapped.entry token lease hproven.leased hproven.live
  refine ⟨ledger, hlast, hinspects, fun args => ?_, hentry, hcapped.size, fun tokens hnodup htokens => ?_,
    hcapped.native, fun before denied config token after hevents hdistinct hok hunspent hlive => ?_⟩
  . rw [hinspects, hlast]
    exact passesProof_iff
  . have hsub : tokens ⊆ SortedSet.ranked ledger.challenges := by
      intro token htoken
      rcases (hinspects token).mp (htokens token htoken) with ⟨lease, hproven⟩
      exact SortedSet.mem_ranked.mpr (Finmap.mem_of_lookup_eq_some (hentry token lease hproven))
    have hlength := (List.subperm_of_subset hnodup hsub).length_le
    rw [SortedSet.length_ranked] at hlength
    exact hlength.trans hcapped.size
  . rcases open_of_issued hdistinct hok with ⟨issued, hissued, hopen⟩
    rw [hevents] at hrun
    rcases run_split hrun with ⟨rest, hrest, hmem⟩
    rw [hissued] at hrest
    have hnative : 1000 * (issuedLease ((Cache.empty start).run before).1.now config).expires
        ≤ (issuedLease ((Cache.empty start).run before).1.now config).expireAt := by
      simp only [issuedLease]
      omega
    rcases run_open hnative hopen hrest fun answer hanswer => hunspent answer (hmem answer hanswer)
      with ⟨ledger', hcache, hstill⟩
    have hnow : last.now < 1000 * (issuedLease ((Cache.empty start).run before).1.now config).expires := by
      simp only [issuedLease]
      omega
    rcases hstill hnow with ⟨hleased, hfree⟩
    rw [hcache]
    exact inspects_of_proven ⟨hfree, hleased, hlive⟩

def exampleLeases : List Event :=
  [.tick 500, .call allowAll (.issue { Config.new with challengeSeconds := 1 } [7]), .tick 600,
    .call allowAll .reap]

theorem challenges_capped_exampleLeases
    : ∃ ledger, ((Cache.empty 0).run exampleLeases).1
          = Ledger.cache ledger ((Cache.empty 0).run exampleLeases).1.now
        ∧ FiniteMap.size ledger.challenges ≤ 4096 := by
  have hfixed : ∀ event ∈ exampleLeases, FixedCap 4096 event := by
    simp [exampleLeases, FixedCap, Config.new]
  rcases challenges_capped Prod.mk.eta.symm hfixed with ⟨ledger, hcache, -, -, -, hsize, -⟩
  exact ⟨ledger, hcache, hsize⟩

-- The lease of `exampleLeases` lives on for a fraction of a second without its entry.
example : (((Cache.empty 0).run exampleLeases).1.keys (.challenge [7])).isSome = true
    ∧ ((Cache.empty 0).run exampleLeases).1.keys .challenges = none := by
  decide

end Store

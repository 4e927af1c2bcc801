import Erase.Library.Lists
import Erase.Protocol.Packet
import Erase.Server.Service
import Erase.Server.Work
import Erase.Store.Accounting

namespace Store

open Server Server.Lua

theorem bits_of_inspectedBits {n bits : Nat}
    (h : inspectedBits (some (.ok [tostring n])) = .ok bits) : n = bits := by
  simp only [inspectedBits, Except.bind_eq_ok] at h
  rcases h with ⟨parts, hparts, inspected, hinspected, h⟩
  cases hparts
  simp only [Except.guard_eq_ok] at h
  rcases h with ⟨-, hbits⟩
  cases hbits
  simp only [number, tostring, List.getElem?_cons_zero, Option.bind_some, parseUnsigned?_print]
    at hinspected
  split at hinspected
  . cases hinspected
  . next m heq =>
    split at heq
    . cases heq
      cases hinspected
      rfl
    . cases heq

section

variable {env : Environment Site} {ledger ledger' : Ledger}

theorem leases_of_accessed {id hash : Bytes} {operation : Operation} {reply : Option Reply}
    (h : Accessed env ledger id hash operation reply ledger') : ledger'.leases = ledger.leases := by
  cases h with
  | expired _ _ hreleased => exact hreleased.shrinks.leases
  | exhausted _ _ _ _ hreleased => exact hreleased.shrinks.leases
  | deleted _ _ _ _ hreleased => exact hreleased.shrinks.leases
  | openedLast _ _ _ _ hreleased => exact hreleased.shrinks.leases
  | _ => rfl

theorem leases_of_swept {reply : Option Reply} (h : Swept env ledger reply ledger')
    : ledger'.leases = ledger.leases := by
  cases h with
  | aborted hreaped => exact hreaped.shrinks.leases
  | swept hreaped => exact hreaped.shrinks.leases

theorem leases_of_issued {token : Bytes} {bits lifetime cap : Nat} {reply : Option Reply}
    (h : Issued env ledger token bits lifetime cap reply ledger')
    : (ledger'.leases = ledger.leases ∧ ∃ error, respond reply = .error error)
      ∨ ∃ lease parts, respond reply = .ok parts
        ∧ ledger'.leases = Function.update ledger.leases token (some lease) := by
  cases h with
  | aborted => exact .inl ⟨rfl, _, rfl⟩
  | refused => exact .inl ⟨rfl, _, rfl⟩
  | issued => exact .inr ⟨_, _, rfl, rfl⟩

theorem leases_of_created {args : CreateArgs} {reply : Option Reply}
    (h : Created env ledger args reply ledger')
    : (ledger'.leases = ledger.leases ∧ ∃ error, respond reply = .error error)
      ∨ ∃ lease parts, respond reply = .ok parts ∧ Proven env ledger args.challenge lease
        ∧ ledger'.leases = Function.update ledger.leases args.challenge none := by
  cases h with
  | reused => exact .inl ⟨rfl, _, rfl⟩
  | unproven => exact .inl ⟨rfl, _, rfl⟩
  | aborted _ hreaped => exact .inl ⟨hreaped.shrinks.leases, _, rfl⟩
  | conflict _ hreaped => exact .inl ⟨hreaped.shrinks.leases, _, rfl⟩
  | full _ hreaped => exact .inl ⟨hreaped.shrinks.leases, _, rfl⟩
  | rolledBack _ hreaped => exact .inl ⟨hreaped.shrinks.leases, _, rfl⟩
  | recorded hproven hreaped =>
    refine .inr ⟨_, _, rfl, hproven, ?_⟩
    simp only [Ledger.recorded, hreaped.shrinks.leases]

theorem bits_of_inspected {token : Bytes} {reply : Reply} {bits : Nat}
    (h : Inspected env ledger token reply) (hbits : inspectedBits (some reply) = .ok bits)
    : ∃ lease, ledger.leases token = some lease ∧ lease.bits = bits := by
  cases h with
  | reused => cases hbits
  | unproven => cases hbits
  | proven hproven => exact ⟨_, hproven.leased, bits_of_inspectedBits hbits⟩

theorem refused_of_unleased {args : CreateArgs} {reply : Option Reply}
    (hunleased : ledger.leases args.challenge = none) (h : Created env ledger args reply ledger')
    : reply = some .proofReused ∨ reply = some .proofInvalid := by
  have hunproven : ∀ lease, ¬Proven env ledger args.challenge lease := by
    intro lease hproven
    have hleased := hproven.leased
    rw [hunleased] at hleased
    cases hleased
  cases h with
  | reused => exact .inl rfl
  | unproven => exact .inr rfl
  | aborted hproven => exact absurd hproven (hunproven _)
  | conflict hproven => exact absurd hproven (hunproven _)
  | full hproven => exact absurd hproven (hunproven _)
  | rolledBack hproven => exact absurd hproven (hunproven _)
  | recorded hproven => exact absurd hproven (hunproven _)

theorem uninspected_of_unleased {token : Bytes} {reply : Reply}
    (hunleased : ledger.leases token = none) (h : Inspected env ledger token reply)
    : reply = .proofReused ∨ reply = .proofInvalid := by
  cases h with
  | reused => exact .inl rfl
  | unproven => exact .inr rfl
  | proven hproven =>
    have hleased := hproven.leased
    rw [hunleased] at hleased
    cases hleased

theorem leases_of_expire {now : Nat} {key : Key} {token : Bytes} {lease : Lease}
    (h : (ledger.expire now key).leases token = some lease) : ledger.leases token = some lease := by
  rcases (faded_expire now ledger key).leases token with hsame | hgone
  . rwa [hsame] at h
  . rw [hgone.1] at h
    cases h

end

theorem receive_eq_ok {sha256 : Bytes → Bytes} {upload : Upload} {body : Bytes} {packet : Packet}
    (h : upload.receive sha256 body = .ok packet)
    : parsePacket packet.bytes = .ok packet
        ∧ verifyWork sha256 upload.challenge upload.nonce packet.bytes upload.bits = .ok true := by
  simp only [Upload.receive, Except.bind_eq_ok] at h
  rcases h with ⟨parsed, hparse, verified, hverify, h⟩
  simp only [Server.fail, Except.guard_eq_ok] at h
  rcases h with ⟨hverified, hparsed⟩
  cases hparsed
  rcases Protocol.serverParsePacket_eq_ok_iff.mp hparse with ⟨value, ciphertext, -, hpacket⟩
  have hbytes : packet.bytes = body := by rw [hpacket]
  rw [hbytes] at hverify ⊢
  simp only [Bool.not_eq_true, Bool.not_eq_false'] at hverified
  exact ⟨hparse, hverified ▸ hverify⟩

-- What one action of the service can do to the leases and the uploads, and what it reports.
inductive Progress (sha256 : Bytes → Bytes) (now : Nat) (ledger : Ledger) (uploads : List Upload)
    : List Outcome → Ledger → List Upload → Prop where
  | kept {ledger' uploads'}
      (hleases : ∀ token lease, ledger'.leases token = some lease → ledger.leases token = some lease)
      (huploads : uploads' ⊆ uploads)
    : Progress sha256 now ledger uploads [] ledger' uploads'
  | issued {challenge lease ledger'}
      (hleases : ledger'.leases = Function.update ledger.leases (asBytes challenge) (some lease))
    : Progress sha256 now ledger uploads [.issued now challenge (some lease.entry)] ledger' uploads
  | inspected {challenge nonce lease}
      (hleased : ledger.leases (asBytes challenge) = some lease)
    : Progress sha256 now ledger uploads [] ledger
        (uploads ++ [{ challenge, nonce, bits := lease.bits }])
  | created {upload packet lease ledger' uploads'} (hupload : upload ∈ uploads)
      (hparse : parsePacket packet.bytes = .ok packet)
      (hverify : verifyWork sha256 upload.challenge upload.nonce packet.bytes upload.bits = .ok true)
      (hleased : ledger.leases (asBytes upload.challenge) = some lease)
      (hlive : now / 1000 < lease.expires)
      (hleases : ledger'.leases = Function.update ledger.leases (asBytes upload.challenge) none)
      (huploads : uploads' ⊆ uploads)
    : Progress sha256 now ledger uploads [.created now upload packet] ledger' uploads'

def Action.elapsed : Action → Nat
  | .tick elapsed => elapsed
  | _ => 0

theorem call_keyspace (now : Nat) (ledger : Ledger) (uploads : List Upload) (denied : Site → Bool)
    (request : Request)
    : ∃ reply ledger', Service.call ⟨⟨now, ledger.keyspace⟩, uploads⟩ denied request
          = (reply, ⟨⟨now, ledger'.keyspace⟩, uploads⟩)
        ∧ Called { now, denied } ledger request reply ledger' := by
  rcases run_script { now, denied } ledger request with ⟨reply, ledger', hrun, hcalled⟩
  refine ⟨reply, ledger', ?_, hcalled⟩
  simp only [Service.call, hrun]

theorem service_step (sha256 : Bytes → Bytes) (now : Nat) (ledger : Ledger) (uploads : List Upload)
    (action : Action)
    : ∃ outcomes ledger' uploads', Service.step sha256 ⟨⟨now, ledger.keyspace⟩, uploads⟩ action
          = (⟨⟨now + Action.elapsed action, ledger'.keyspace⟩, uploads'⟩, outcomes)
        ∧ Progress sha256 now ledger uploads outcomes ledger' uploads' := by
  cases action with
  | tick elapsed => exact ⟨[], ledger, uploads, rfl, .kept (fun _ _ h => h) (List.Subset.refl _)⟩
  | expire key =>
    refine ⟨[], ledger.expire now key, uploads, ?_, .kept (fun _ _ h => ?_) (List.Subset.refl _)⟩
    . simp only [Service.step, Cache.step, Ledger.keyspace_expire, Action.elapsed, Nat.add_zero]
    . exact leases_of_expire h
  | challenge denied config token =>
    rcases call_keyspace now ledger uploads denied (.issue config (asBytes token))
      with ⟨reply, ledger', hcall, hcalled⟩
    simp only [Service.step, hcall]
    cases hcalled with
    | issue hissued =>
      rcases leases_of_issued hissued with ⟨hsame, error, hrespond⟩ | ⟨lease, parts, hrespond, hleases⟩
      . rw [hrespond]
        exact ⟨[], ledger', uploads, rfl, .kept (fun _ _ h => hsame ▸ h) (List.Subset.refl _)⟩
      . rw [hrespond]
        have hentry : ledger'.keyspace (.challenge (asBytes token)) = some lease.entry := by
          simp only [Ledger.keyspace, hleases, Function.update_self, Option.map_some]
        refine ⟨_, ledger', uploads, rfl, ?_⟩
        rw [hentry]
        exact .issued hleases
  | inspect denied challenge nonce =>
    simp only [Service.step]
    split
    . exact ⟨[], ledger, uploads, rfl, .kept (fun _ _ h => h) (List.Subset.refl _)⟩
    rcases call_keyspace now ledger uploads denied (.inspectProof (asBytes challenge))
      with ⟨reply, ledger', hcall, hcalled⟩
    rw [hcall]
    cases hcalled with
    | inspectProof hinspected =>
      dsimp only
      split
      . exact ⟨[], ledger, uploads, rfl, .kept (fun _ _ h => h) (List.Subset.refl _)⟩
      . next bits hbits =>
        rcases bits_of_inspected hinspected hbits with ⟨lease, hleased, rfl⟩
        exact ⟨[], ledger, _, rfl, .inspected hleased⟩
  | create denied config index body =>
    simp only [Service.step]
    split
    . exact ⟨[], ledger, uploads, rfl, .kept (fun _ _ h => h) (List.Subset.refl _)⟩
    next upload hupload =>
    have huploads : uploads.eraseIdx index ⊆ uploads := List.eraseIdx_subset
    split
    . exact ⟨[], ledger, _, rfl, .kept (fun _ _ h => h) huploads⟩
    next packet hreceive =>
    rcases receive_eq_ok hreceive with ⟨hparse, hverify⟩
    rcases call_keyspace now ledger (uploads.eraseIdx index) denied
      (.create config packet (asBytes upload.challenge)) with ⟨reply, ledger', hcall, hcalled⟩
    rw [hcall]
    cases hcalled with
    | create hcreated =>
      rcases leases_of_created hcreated
        with ⟨hsame, error, hrespond⟩ | ⟨lease, parts, hrespond, hproven, hleases⟩
      . simp only [hrespond]
        exact ⟨[], ledger', _, rfl, .kept (fun _ _ h => hsame ▸ h) huploads⟩
      . simp only [hrespond]
        exact ⟨_, ledger', _, rfl, .created (List.mem_of_getElem? hupload) hparse hverify
          hproven.leased hproven.live hleases huploads⟩
  | abandon index =>
    refine ⟨[], ledger, uploads.eraseIdx index, rfl, .kept (fun _ _ h => h) ?_⟩
    exact List.eraseIdx_subset
  | access denied id hash operation =>
    rcases call_keyspace now ledger uploads denied (.access id hash operation)
      with ⟨reply, ledger', hcall, hcalled⟩
    cases hcalled with
    | access haccessed =>
    refine ⟨[], ledger', uploads, ?_, .kept (fun _ _ h => ?_) (List.Subset.refl _)⟩
    . simp only [Service.step, hcall, Action.elapsed, Nat.add_zero]
    . rwa [leases_of_accessed haccessed] at h
  | reap denied =>
    rcases call_keyspace now ledger uploads denied .reap with ⟨reply, ledger', hcall, hcalled⟩
    cases hcalled with
    | reap hswept =>
    refine ⟨[], ledger', uploads, ?_, .kept (fun _ _ h => ?_) (List.Subset.refl _)⟩
    . simp only [Service.step, hcall, Action.elapsed, Nat.add_zero]
    . rwa [leases_of_swept hswept] at h

def issuedChallenges (outcomes : List Outcome) : List String := outcomes.filterMap Outcome.issues
def spentChallenges (outcomes : List Outcome) : List String := outcomes.filterMap Outcome.spends

-- A creation answers a challenge that was issued before, with the work that its lease asks for.
def Earned (sha256 : Bytes → Bytes) (before : List Outcome) : Outcome → Prop
  | .issued _ _ _ => True
  | .created time upload packet => ∃ (issued : Nat) (lease : Lease),
      .issued issued upload.challenge (some lease.entry) ∈ before
        ∧ parsePacket packet.bytes = .ok packet
        ∧ verifyWork sha256 upload.challenge upload.nonce packet.bytes lease.bits = .ok true
        ∧ time / 1000 < lease.expires

structure SingleUse (sha256 : Bytes → Bytes) (ledger : Ledger) (uploads : List Upload)
    (outcomes : List Outcome) : Prop where
  leased : ∀ token (lease : Lease), ledger.leases token = some lease
    → ∃ time challenge, token = asBytes challenge
      ∧ .issued time challenge (some lease.entry) ∈ outcomes ∧ challenge ∉ spentChallenges outcomes
  inspected : ∀ upload ∈ uploads, ∃ (time : Nat) (lease : Lease),
    .issued time upload.challenge (some lease.entry) ∈ outcomes ∧ lease.bits = upload.bits
  earned : ∀ before outcome after, outcomes = before ++ outcome :: after
    → Earned sha256 before outcome
  spent : (spentChallenges outcomes).Nodup

theorem Lease.bits_eq {left right : Lease} (h : left.entry = right.entry) : left.bits = right.bits := by
  have hvalue : left.value = right.value := by
    simpa only [Lease.entry, Entry.mk.injEq, Value.string.injEq] using congrArg Entry.value h
  have hmatch := left.matchLease_value
  rw [hvalue, right.matchLease_value] at hmatch
  simp only [Option.some.injEq, Prod.mk.injEq] at hmatch
  exact (Decimal.print_injective hmatch.2).symm

namespace SingleUse

variable {sha256 : Bytes → Bytes} {now : Nat} {ledger ledger' : Ledger}
  {uploads uploads' : List Upload} {outcomes : List Outcome}

theorem issued_of_spent (h : SingleUse sha256 ledger uploads outcomes) {challenge : String}
    (hspent : challenge ∈ spentChallenges outcomes) : challenge ∈ issuedChallenges outcomes := by
  rcases List.mem_filterMap.mp hspent with ⟨outcome, hmem, hspends⟩
  rcases List.append_of_mem hmem with ⟨before, after, hsplit⟩
  have hearned := h.earned before outcome after hsplit
  cases outcome with
  | issued => cases hspends
  | created time upload packet =>
    cases hspends
    rcases hearned with ⟨issued, lease, hissued, -⟩
    exact List.mem_filterMap.mpr ⟨_, hsplit ▸ List.mem_append_left _ hissued, rfl⟩

theorem unleased_of_spent (h : SingleUse sha256 ledger uploads outcomes) {challenge : String}
    (hspent : challenge ∈ spentChallenges outcomes) : ledger.leases (asBytes challenge) = none := by
  rw [Option.eq_none_iff_forall_ne_some]
  intro lease hlease
  rcases h.leased _ lease hlease with ⟨time, other, hsame, -, hunspent⟩
  rw [asBytes_injective hsame] at hspent
  exact hunspent hspent

theorem earned_snoc (h : SingleUse sha256 ledger uploads outcomes) {outcome : Outcome}
    (hearned : Earned sha256 outcomes outcome)
    : ∀ before outcome' after, outcomes ++ [outcome] = before ++ outcome' :: after
      → Earned sha256 before outcome' := by
  intro before outcome' after hsplit
  rcases List.split_snoc hsplit with ⟨rfl, rfl⟩ | ⟨rest, hrest⟩
  . exact hearned
  . exact h.earned before outcome' rest hrest

theorem of_progress (h : SingleUse sha256 ledger uploads outcomes) {new : List Outcome}
    (hprogress : Progress sha256 now ledger uploads new ledger' uploads')
    (hdistinct : (issuedChallenges (outcomes ++ new)).Nodup)
    : SingleUse sha256 ledger' uploads' (outcomes ++ new) := by
  cases hprogress with
  | kept hleases huploads =>
    rw [List.append_nil]
    exact {
      leased := fun token lease hlease => h.leased token lease (hleases token lease hlease)
      inspected := fun upload hupload => h.inspected upload (huploads hupload)
      earned := h.earned
      spent := h.spent }
  | @issued challenge lease _ hleases =>
    have hspent : spentChallenges (outcomes ++ [.issued now challenge (some lease.entry)])
        = spentChallenges outcomes := by
      simp [spentChallenges, Outcome.spends]
    have hfresh : challenge ∉ spentChallenges outcomes := by
      intro hmem
      rw [issuedChallenges, List.filterMap_append] at hdistinct
      exact (List.nodup_append.mp hdistinct).2.2 challenge (h.issued_of_spent hmem) challenge
        (List.mem_singleton_self challenge) rfl
    exact {
      leased := fun token other hother => by
        rw [hspent]
        by_cases htoken : token = asBytes challenge
        . subst htoken
          rw [hleases, Function.update_self] at hother
          cases hother
          exact ⟨now, challenge, rfl, by simp, hfresh⟩
        . rw [hleases, Function.update_of_ne htoken] at hother
          rcases h.leased token other hother with ⟨time, issued, htoken, hissued, hunspent⟩
          exact ⟨time, issued, htoken, List.mem_append_left _ hissued, hunspent⟩
      inspected := fun upload hupload => by
        rcases h.inspected upload hupload with ⟨time, other, hissued, hbits⟩
        exact ⟨time, other, List.mem_append_left _ hissued, hbits⟩
      earned := h.earned_snoc trivial
      spent := hspent ▸ h.spent }
  | @inspected challenge nonce lease hleased =>
    rw [List.append_nil]
    rcases h.leased _ lease hleased with ⟨time, other, hsame, hissued, -⟩
    have hsame := asBytes_injective hsame
    subst hsame
    refine { h with inspected := fun upload hupload => ?_ }
    rcases List.mem_append.mp hupload with hold | hnew
    . exact h.inspected upload hold
    . rw [List.mem_singleton.mp hnew]
      exact ⟨time, lease, hissued, rfl⟩
  | @created upload packet lease _ _ hupload hparse hverify hleased hlive hleases huploads =>
    rcases h.leased _ lease hleased with ⟨time, challenge, hsame, hissued, hunspent⟩
    rcases h.inspected upload hupload with ⟨time', other, hissued', hbits⟩
    have hsame := asBytes_injective hsame
    subst hsame
    have hdistinct' : (issuedChallenges outcomes).Nodup := by
      rw [issuedChallenges, List.filterMap_append] at hdistinct
      exact (List.nodup_append.mp hdistinct).1
    have hentry := List.eq_of_nodup_filterMap hdistinct' hissued hissued' rfl rfl
    simp only [Outcome.issued.injEq, Option.some.injEq, true_and] at hentry
    have hbits' : upload.bits = lease.bits := by rw [← hbits, Lease.bits_eq hentry.2]
    have hspent : spentChallenges (outcomes ++ [.created now upload packet])
        = spentChallenges outcomes ++ [upload.challenge] := by
      simp [spentChallenges, Outcome.spends]
    exact {
      leased := fun token other hother => by
        have htoken : token ≠ asBytes upload.challenge := by
          rintro rfl
          rw [hleases, Function.update_self] at hother
          cases hother
        rw [hleases, Function.update_of_ne htoken] at hother
        rcases h.leased token other hother with ⟨time, issued, rfl, hissued, hunspent⟩
        refine ⟨time, issued, rfl, List.mem_append_left _ hissued, ?_⟩
        rw [hspent, List.mem_append, List.mem_singleton, not_or]
        exact ⟨hunspent, fun hsame => htoken (hsame ▸ rfl)⟩
      inspected := fun upload' hupload' => by
        rcases h.inspected upload' (huploads hupload') with ⟨time, other, hissued, hbits⟩
        exact ⟨time, other, List.mem_append_left _ hissued, hbits⟩
      earned := h.earned_snoc ⟨time, lease, hissued, hparse, hbits' ▸ hverify, hlive⟩
      spent := by
        rw [hspent, ← List.concat_eq_append]
        exact h.spent.concat hunspent }

end SingleUse

theorem singleUse_run (sha256 : Bytes → Bytes) (actions : List Action) {now : Nat} {ledger : Ledger}
    {uploads : List Upload} {outcomes : List Outcome}
    (h : SingleUse sha256 ledger uploads outcomes)
    (hdistinct : (issuedChallenges (outcomes
      ++ (Service.run sha256 ⟨⟨now, ledger.keyspace⟩, uploads⟩ actions).2)).Nodup)
    : ∃ now' ledger' uploads', (Service.run sha256 ⟨⟨now, ledger.keyspace⟩, uploads⟩ actions).1
          = ⟨⟨now', ledger'.keyspace⟩, uploads'⟩
        ∧ SingleUse sha256 ledger' uploads'
          (outcomes ++ (Service.run sha256 ⟨⟨now, ledger.keyspace⟩, uploads⟩ actions).2) := by
  induction actions generalizing now ledger uploads outcomes with
  | nil =>
    refine ⟨now, ledger, uploads, rfl, ?_⟩
    simpa only [Service.run, List.append_nil] using h
  | cons action actions ih =>
    rcases service_step sha256 now ledger uploads action
      with ⟨new, ledger', uploads', hstep, hprogress⟩
    simp only [Service.run, hstep, ← List.append_assoc] at hdistinct ⊢
    have hnew : (issuedChallenges (outcomes ++ new)).Nodup := by
      rw [issuedChallenges, List.filterMap_append] at hdistinct
      exact (List.nodup_append.mp hdistinct).1
    exact ih (h.of_progress hprogress hnew) hdistinct

theorem one_proof_one_note (sha256 : Bytes → Bytes) {start : Nat} {actions : List Action}
    {last : Service} {outcomes : List Outcome}
    (hrun : (Service.empty start).run sha256 actions = (last, outcomes))
    (hdistinct : (issuedChallenges outcomes).Nodup)
    : (spentChallenges outcomes).Nodup
        ∧ (∀ before time upload packet after,
          outcomes = before ++ .created time upload packet :: after
            → ∃ (issued : Nat) (lease : Lease),
              .issued issued upload.challenge (some lease.entry) ∈ before
                ∧ parsePacket packet.bytes = .ok packet
                ∧ verifyWork sha256 upload.challenge upload.nonce packet.bytes lease.bits = .ok true
                ∧ time / 1000 < lease.expires)
        ∧ ∀ challenge ∈ spentChallenges outcomes, ∀ denied : Site → Bool,
          (last.call denied (.inspectProof (asBytes challenge))).1
              ∈ [some Reply.proofReused, some .proofInvalid]
            ∧ ∀ config packet, (last.call denied (.create config packet (asBytes challenge))).1
              ∈ [some Reply.proofReused, some .proofInvalid] := by
  have hempty : SingleUse sha256 .empty [] [] := {
    leased := fun _ _ h => nomatch h
    inspected := by simp
    earned := by simp
    spent := by simp [spentChallenges] }
  have hstart : (Service.empty start).run sha256 actions
      = Service.run sha256 ⟨⟨start, Ledger.empty.keyspace⟩, []⟩ actions := by
    rw [Ledger.keyspace_empty]
    rfl
  rw [hstart] at hrun
  have hlast := singleUse_run sha256 actions hempty (by rw [hrun]; exact hdistinct)
  rw [hrun] at hlast
  rcases hlast with ⟨now, ledger, uploads, rfl, h⟩
  refine ⟨h.spent, fun before time upload packet after hsplit => ?_, fun challenge hspent denied => ?_⟩
  . exact h.earned before (.created time upload packet) after hsplit
  . have hunleased := h.unleased_of_spent hspent
    constructor
    . rcases call_keyspace now ledger uploads denied (.inspectProof (asBytes challenge))
        with ⟨reply, ledger', hcall, hcalled⟩
      rw [hcall]
      cases hcalled with
      | inspectProof hinspected =>
        rcases uninspected_of_unleased hunleased hinspected with rfl | rfl
        . simp
        . simp
    . intro config packet
      rcases call_keyspace now ledger uploads denied (.create config packet (asBytes challenge))
        with ⟨reply, ledger', hcall, hcalled⟩
      rw [hcall]
      cases hcalled with
      | create hcreated =>
        rcases refused_of_unleased hunleased hcreated with rfl | rfl
        . simp
        . simp

def exampleChallenge : String := "AAAAAAAAAAAAAAAAAAAAAAAAAAAAAAAAAAAAAAAAAAA"
def exampleNonce : String := "1388379"
def exampleText : String :=
  "AAAAAAAAAAAAAAAAAAAAAAAAAAAAAAAAAAAAAAAAAAA."
    ++ "0e7f1868b39447ec0cc89969828a5c0aaf30b2d69dc60e6718f59a115860fb0e.1388379"

-- SHA-256 on the text, whose digest starts with 21 zero bits, and on the packet.
def exampleSha256 (bytes : Bytes) : Bytes :=
  if bytes = asBytes exampleText then
    [0x00, 0x00, 0x05, 0x27, 0x18, 0xdc, 0x70, 0x79, 0xb6, 0x3d, 0x05, 0xa7, 0x02, 0x71, 0x9d, 0x1b,
      0xe3, 0x12, 0xd9, 0xe7, 0x16, 0x64, 0x6b, 0x0e, 0x4b, 0x08, 0x72, 0x6a, 0xe4, 0xd1, 0x11, 0xbc]
  else
    [0x0e, 0x7f, 0x18, 0x68, 0xb3, 0x94, 0x47, 0xec, 0x0c, 0xc8, 0x99, 0x69, 0x82, 0x8a, 0x5c, 0x0a,
      0xaf, 0x30, 0xb2, 0xd6, 0x9d, 0xc6, 0x0e, 0x67, 0x18, 0xf5, 0x9a, 0x11, 0x58, 0x60, 0xfb, 0x0e]

def exampleActions : List Action :=
  [.challenge allowAll .new exampleChallenge, .inspect allowAll exampleChallenge exampleNonce,
    .inspect allowAll exampleChallenge exampleNonce,
    .create allowAll .new 0 exampleUpload.bytes, .tick 420000,
    .expire (.spent (asBytes exampleChallenge))]

-- The second inspection is of no use, even after the marker of the first creation is gone.
theorem one_proof_one_note_exampleUpload
    : (((Service.empty 0).run exampleSha256 exampleActions).1.call allowAll
          (.create .new exampleUpload (asBytes exampleChallenge))).1
        ∈ [some Reply.proofReused, some .proofInvalid] := by
  have houtcomes : let outcomes := ((Service.empty 0).run exampleSha256 exampleActions).2
      issuedChallenges outcomes = [exampleChallenge]
        ∧ spentChallenges outcomes = [exampleChallenge] := by
    decide +kernel
  rcases houtcomes with ⟨hissued, hspent⟩
  have hnotes := one_proof_one_note exampleSha256 Prod.mk.eta.symm
    (hissued ▸ List.nodup_singleton exampleChallenge)
  have hmem := List.mem_singleton_self exampleChallenge
  rw [← hspent] at hmem
  exact (hnotes.2.2 exampleChallenge hmem allowAll).2 .new exampleUpload

end Store

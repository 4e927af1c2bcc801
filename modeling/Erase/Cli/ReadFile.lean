import Erase.Library.Except
import Erase.Cli.Passphrase

namespace Cli

inductive ReadFailure where
  | cli (error : CliError)
  | rangeError
  deriving DecidableEq

-- An open file, which others may change while it is read.
structure FileHandle where
  isFile : Bool
  -- The size that `stat` has told.
  size : Nat
  -- What the read of this number finds at this position: nothing only at the end of the file.
  available : (n position : Nat) → Bytes

-- One `file.read`, with the length of its buffer.
structure Transfer where
  requested : Nat
  bytes : Bytes

structure Reading where
  transfers : List Transfer
  result : Except ReadFailure Bytes

def received (transfers : List Transfer) : Bytes := transfers.flatMap Transfer.bytes

def Reading.after (transfer : Transfer) (reading : Reading) : Reading :=
  { reading with transfers := transfer :: reading.transfers }

def exceeds : ReadFailure := .cli (.error "File exceeds the limit.")

def requestSize (limit size : Nat) : Nat := min 65536 (limit - size + 1)

def copyChunks (result : Bytes) (offset : Nat) : List Bytes → Except ReadFailure Bytes
  | [] => .ok result
  | chunk :: chunks =>
    match result.write offset chunk with
    | some result => copyChunks result (offset + chunk.length) chunks
    | none => .error .rangeError

namespace FileHandle

variable (handle : FileHandle) (limit : Nat)

def transfer (n size : Nat) : Transfer where
  requested := requestSize limit size
  bytes := (handle.available n size).take (requestSize limit size)

-- The loop may go on after this number of reads.
def readChunks : (reads : Nat) → (chunks : List Bytes) → (size : Nat) → Option Reading
  | 0, _, _ => none
  | reads + 1, chunks, size =>
    let transfer := handle.transfer limit chunks.length size
    if transfer.bytes = [] then
      some ⟨[transfer], copyChunks (List.replicate size 0) 0 chunks⟩
    else if size + transfer.bytes.length > limit then
      some ⟨[transfer], .error exceeds⟩
    else
      (readChunks reads (chunks ++ [transfer.bytes]) (size + transfer.bytes.length)).map
        (Reading.after transfer)

def readBoundedFile (reads : Nat) : Option Reading :=
  if !handle.isFile ∨ handle.size > limit then
    some ⟨[], .error (.cli (.error "File exceeds the limit or is not a regular file."))⟩
  else
    handle.readChunks limit reads [] 0

end FileHandle

theorem requestSize_pos (limit size : Nat) : 1 ≤ requestSize limit size := by
  unfold requestSize
  omega

theorem copyChunks_from {chunks : List Bytes} (front : Bytes) {back : Bytes}
    (h : back.length = chunks.flatten.length)
    : copyChunks (front ++ back) front.length chunks = .ok (front ++ chunks.flatten) := by
  induction chunks generalizing front back with
  | nil =>
    have hback : back = [] := List.eq_nil_of_length_eq_zero (by simpa using h)
    rw [hback]
    rfl
  | cons chunk chunks ih =>
    rw [List.flatten_cons, List.length_append] at h
    have hlength : (back.drop chunk.length).length = chunks.flatten.length := by
      rw [List.length_drop]
      omega
    have hcopied := ih (front ++ chunk) hlength
    rw [List.length_append] at hcopied
    rw [copyChunks, Bytes.write_append (by omega)]
    dsimp only
    rw [hcopied, List.flatten_cons, List.append_assoc]

theorem copyChunks_flatten (chunks : List Bytes)
    : copyChunks (List.replicate chunks.flatten.length 0) 0 chunks = .ok chunks.flatten :=
  copyChunks_from [] (List.length_replicate ..)

namespace FileHandle

variable {handle : FileHandle} {limit n size : Nat}

theorem one_le_requested : 1 ≤ (handle.transfer limit n size).requested := requestSize_pos limit size

theorem length_bytes_le
    : (handle.transfer limit n size).bytes.length ≤ (handle.transfer limit n size).requested :=
  List.length_take_le ..

-- A read of nothing has met the end of the file.
theorem bytes_eq_nil
    : (handle.transfer limit n size).bytes = [] ↔ handle.available n size = [] := by
  have hpos := requestSize_pos limit size
  rw [transfer, List.take_eq_nil_iff]
  constructor
  . intro h
    exact h.resolve_left (by omega)
  . intro h
    exact .inr h

theorem size_add_length_bytes_le (h : size ≤ limit)
    : size + (handle.transfer limit n size).bytes.length ≤ limit + 1 := by
  have hle : (handle.transfer limit n size).bytes.length ≤ requestSize limit size :=
    List.length_take_le ..
  unfold requestSize at hle
  omega

-- The read that follows those of the chunks.
def next (handle : FileHandle) (limit : Nat) (chunks : List Bytes) : Transfer :=
  handle.transfer limit chunks.length chunks.flatten.length

-- What the loop does with the chunks that it has read.
inductive Reads (handle : FileHandle) (limit : Nat) : List Bytes → Reading → Prop where
  | ended {chunks : List Bytes} (hempty : (handle.next limit chunks).bytes = [])
      : Reads handle limit chunks ⟨[handle.next limit chunks], .ok chunks.flatten⟩
  | exceeded {chunks : List Bytes}
      (hlong : limit < chunks.flatten.length + (handle.next limit chunks).bytes.length)
      : Reads handle limit chunks ⟨[handle.next limit chunks], .error exceeds⟩
  | more {chunks : List Bytes} {reading : Reading} (hsome : (handle.next limit chunks).bytes ≠ [])
      (hfit : chunks.flatten.length + (handle.next limit chunks).bytes.length ≤ limit)
      (hreads : Reads handle limit (chunks ++ [(handle.next limit chunks).bytes]) reading)
      : Reads handle limit chunks (reading.after (handle.next limit chunks))

theorem readChunks_succ (reads : Nat) (chunks : List Bytes)
    : handle.readChunks limit (reads + 1) chunks chunks.flatten.length
        = if (handle.next limit chunks).bytes = [] then
            some ⟨[handle.next limit chunks], .ok chunks.flatten⟩
          else if chunks.flatten.length + (handle.next limit chunks).bytes.length > limit then
            some ⟨[handle.next limit chunks], .error exceeds⟩
          else
            (handle.readChunks limit reads (chunks ++ [(handle.next limit chunks).bytes])
              (chunks ++ [(handle.next limit chunks).bytes]).flatten.length).map
                (Reading.after (handle.next limit chunks)) := by
  have hsize : (chunks ++ [(handle.next limit chunks).bytes]).flatten.length
      = chunks.flatten.length + (handle.next limit chunks).bytes.length := by simp
  rw [hsize]
  simp only [readChunks, copyChunks_flatten]
  rfl

-- Every read but the last makes the size grow, which ends the loop.
theorem exists_reads (handle : FileHandle) {limit : Nat} (chunks : List Bytes)
    (h : chunks.flatten.length ≤ limit)
    : ∃ reading, Reads handle limit chunks reading
      ∧ ∀ reads, limit + 2 ≤ reads + chunks.flatten.length
        → handle.readChunks limit reads chunks chunks.flatten.length = some reading := by
  induction hrest : limit - chunks.flatten.length using Nat.strongRecOn generalizing chunks with
  | ind rest ih =>
    have hreads : ∀ {reading}, (∀ reads, limit + 2 ≤ reads + 1 + chunks.flatten.length
        → handle.readChunks limit (reads + 1) chunks chunks.flatten.length = some reading)
        → ∀ reads, limit + 2 ≤ reads + chunks.flatten.length
          → handle.readChunks limit reads chunks chunks.flatten.length = some reading := by
      intro reading hsucc reads hle
      cases reads with
      | zero => omega
      | succ reads => exact hsucc reads hle
    by_cases hempty : (handle.next limit chunks).bytes = []
    . refine ⟨_, .ended hempty, hreads ?_⟩
      intro reads _
      rw [readChunks_succ, if_pos hempty]
    . by_cases hlong : limit < chunks.flatten.length + (handle.next limit chunks).bytes.length
      . refine ⟨_, .exceeded hlong, hreads ?_⟩
        intro reads _
        rw [readChunks_succ, if_neg hempty, if_pos hlong]
      . have hpos := List.length_pos_iff.mpr hempty
        have hsize : (chunks ++ [(handle.next limit chunks).bytes]).flatten.length
            = chunks.flatten.length + (handle.next limit chunks).bytes.length := by simp
        rcases ih (limit - (chunks ++ [(handle.next limit chunks).bytes]).flatten.length) (by omega) _
          (by omega) rfl with ⟨reading, hreading, hread⟩
        refine ⟨_, .more hempty (by omega) hreading, hreads ?_⟩
        intro reads hle
        rw [readChunks_succ, if_neg hempty, if_neg hlong, hread reads (by omega)]
        rfl

end FileHandle

@[simp]
theorem received_nil : received [] = [] := rfl

@[simp]
theorem received_cons (transfer : Transfer) (transfers : List Transfer)
    : received (transfer :: transfers) = transfer.bytes ++ received transfers := rfl

-- A read that asks for a byte at least, while the limit is kept, and goes on after those before it.
structure Transfer.Follows (transfer : Transfer) (handle : FileHandle) (limit n : Nat)
    (before : Bytes) : Prop where
  one_le : 1 ≤ transfer.requested
  length_le : transfer.bytes.length ≤ transfer.requested
  within : before.length ≤ limit
  eq : transfer = handle.transfer limit n before.length

-- What a reading owes to the file, when `chunks` have been read before.
structure Reading.Exact (reading : Reading) (handle : FileHandle) (limit : Nat) (chunks : List Bytes)
    : Prop where
  transfers : ∀ (i : Nat) (transfer : Transfer), reading.transfers[i]? = some transfer
    → transfer.Follows handle limit (chunks.length + i)
        (chunks.flatten ++ received (reading.transfers.take i))
  -- Only the last read may return nothing, and only at the end of the file.
  ended : ∀ (i : Nat) (transfer : Transfer), reading.transfers[i]? = some transfer
    → transfer.bytes = []
    → i + 1 = reading.transfers.length
      ∧ handle.available (chunks.length + i)
          (chunks.flatten ++ received (reading.transfers.take i)).length = []
  total : (chunks.flatten ++ received reading.transfers).length ≤ limit + 1
  returns : (chunks.flatten ++ received reading.transfers).length ≤ limit
    → reading.result = .ok (chunks.flatten ++ received reading.transfers)
      ∧ ∃ last ∈ reading.transfers, last.bytes = []
  throws : limit < (chunks.flatten ++ received reading.transfers).length
    → reading.result = .error exceeds

namespace FileHandle

variable {handle : FileHandle} {limit : Nat} {chunks : List Bytes} {reading : Reading}

theorem next_follows (h : chunks.flatten.length ≤ limit)
    : (handle.next limit chunks).Follows handle limit chunks.length chunks.flatten where
  one_le := one_le_requested
  length_le := length_bytes_le
  within := h
  eq := rfl

theorem Reads.ne_nil (hreads : Reads handle limit chunks reading) : reading.transfers ≠ [] := by
  cases hreads with
  | ended hempty => simp
  | exceeded hlong => simp
  | more hsome hfit hreads => simp [Reading.after]

-- The facts of a first read and those of the later ones are the facts of all.
theorem follows_cons {later : List Transfer} (h : chunks.flatten.length ≤ limit)
    (hlater : ∀ (i : Nat) (transfer : Transfer), later[i]? = some transfer
      → transfer.Follows handle limit ((chunks ++ [(handle.next limit chunks).bytes]).length + i)
          ((chunks ++ [(handle.next limit chunks).bytes]).flatten ++ received (later.take i)))
    (i : Nat) (transfer : Transfer) (hget : (handle.next limit chunks :: later)[i]? = some transfer)
    : transfer.Follows handle limit (chunks.length + i)
        (chunks.flatten ++ received ((handle.next limit chunks :: later).take i)) := by
  cases i with
  | zero =>
    rw [List.getElem?_cons_zero, Option.some.injEq] at hget
    subst hget
    simpa using next_follows h
  | succ i =>
    rw [List.getElem?_cons_succ] at hget
    have hfollows := hlater i transfer hget
    have hlength : (chunks ++ [(handle.next limit chunks).bytes]).length + i
        = chunks.length + (i + 1) := by
      rw [List.length_append, List.length_singleton]
      omega
    rw [hlength] at hfollows
    simpa using hfollows

theorem available_eq_nil {n : Nat} {before : Bytes} {transfer : Transfer}
    (h : transfer.Follows handle limit n before) (hnone : transfer.bytes = [])
    : handle.available n before.length = [] := by
  rw [h.eq, bytes_eq_nil] at hnone
  exact hnone

theorem ended_singleton {first : Transfer}
    (hfollows : ∀ (i : Nat) (transfer : Transfer), [first][i]? = some transfer
      → transfer.Follows handle limit (chunks.length + i)
          (chunks.flatten ++ received ([first].take i)))
    (i : Nat) (transfer : Transfer) (hget : [first][i]? = some transfer) (hnone : transfer.bytes = [])
    : i + 1 = [first].length
      ∧ handle.available (chunks.length + i)
          (chunks.flatten ++ received ([first].take i)).length = [] := by
  have hlt := (List.getElem?_eq_some_iff.mp hget).1
  rw [List.length_singleton] at hlt ⊢
  exact ⟨by omega, available_eq_nil (hfollows i transfer hget) hnone⟩

theorem Reads.exact (hreads : Reads handle limit chunks reading) (h : chunks.flatten.length ≤ limit)
    : reading.Exact handle limit chunks := by
  induction hreads with
  | @ended chunks hempty =>
    have hreceived : chunks.flatten ++ received [handle.next limit chunks] = chunks.flatten := by
      simp [hempty]
    constructor
    . exact follows_cons h (by simp)
    . exact ended_singleton (follows_cons h (by simp))
    . dsimp only
      rw [hreceived]
      omega
    . intro _
      dsimp only
      rw [hreceived]
      exact ⟨rfl, _, List.mem_singleton_self _, hempty⟩
    . dsimp only
      rw [hreceived]
      omega
  | @exceeded chunks hlong =>
    have hlength : (chunks.flatten ++ received [handle.next limit chunks]).length
        = chunks.flatten.length + (handle.next limit chunks).bytes.length := by simp
    have hbound : chunks.flatten.length + (handle.next limit chunks).bytes.length ≤ limit + 1 :=
      size_add_length_bytes_le h
    constructor
    . exact follows_cons h (by simp)
    . exact ended_singleton (follows_cons h (by simp))
    . dsimp only
      omega
    . dsimp only
      omega
    . intro _
      rfl
  | @more chunks reading hsome hfit hreads ih =>
    have hexact := ih (by simpa using hfit)
    have hreceived : chunks.flatten ++ received (reading.after (handle.next limit chunks)).transfers
        = (chunks ++ [(handle.next limit chunks).bytes]).flatten ++ received reading.transfers := by
      simp [Reading.after]
    constructor
    . exact follows_cons h hexact.transfers
    . intro i transfer hget hnone
      refine ⟨?_, available_eq_nil (follows_cons h hexact.transfers i transfer hget) hnone⟩
      cases i with
      | zero =>
        simp only [Reading.after, List.getElem?_cons_zero, Option.some.injEq] at hget
        subst hget
        exact absurd hnone hsome
      | succ i =>
        have hlast := (hexact.ended i transfer (by simpa [Reading.after] using hget) hnone).1
        simp only [Reading.after, List.length_cons]
        omega
    . rw [hreceived]
      exact hexact.total
    . rw [hreceived]
      intro hle
      rcases hexact.returns hle with ⟨hresult, last, hmem, hlast⟩
      exact ⟨hresult, last, List.mem_cons_of_mem _ hmem, hlast⟩
    . rw [hreceived]
      exact hexact.throws

theorem readBoundedFile_exact (handle : FileHandle) (limit : Nat)
    : ∃ reading, (∀ reads, limit + 2 ≤ reads → handle.readBoundedFile limit reads = some reading)
      ∧ (handle.isFile = false ∨ limit < handle.size
        → reading
          = ⟨[], .error (.cli (.error "File exceeds the limit or is not a regular file."))⟩)
      ∧ (handle.isFile = true ∧ handle.size ≤ limit → reading.Exact handle limit []) := by
  by_cases hrefused : handle.isFile = false ∨ limit < handle.size
  . refine ⟨_, ?_, fun _ => rfl, ?_⟩
    . intro reads _
      rw [readBoundedFile, if_pos (by simpa using hrefused)]
    . intro hopened
      rcases hrefused with hfile | hsize
      . rw [hopened.1] at hfile
        cases hfile
      . omega
  . rcases exists_reads handle [] (Nat.zero_le limit) with ⟨reading, hreads, hread⟩
    refine ⟨reading, ?_, fun h => absurd h hrefused, fun _ => hreads.exact (by simp)⟩
    intro reads hle
    rw [readBoundedFile, if_neg (by simpa using hrefused)]
    exact hread reads (by simpa using hle)

-- A file that stays as it is, and is read in pieces of any lengths.
def unchanged (file : Bytes) (counts : Nat → Nat) : FileHandle where
  isFile := true
  size := file.length
  available n position := (file.drop position).take (counts n)

theorem Reads.unchanged {file : Bytes} {counts : Nat → Nat} (hcounts : ∀ n, 1 ≤ counts n)
    (hreads : Reads (FileHandle.unchanged file counts) limit chunks reading)
    (hinitial : chunks.flatten <+: file) (h : file.length ≤ limit) : reading.result = .ok file := by
  induction hreads with
  | @ended chunks hempty =>
    have hnone := bytes_eq_nil.mp hempty
    have hcount := hcounts chunks.length
    simp only [FileHandle.unchanged, List.take_eq_nil_iff, List.drop_eq_nil_iff] at hnone
    have hlength := hinitial.length_le
    exact congrArg Except.ok (hinitial.eq_of_length (by omega))
  | @exceeded chunks hlong =>
    have hlength := hinitial.length_le
    simp only [next, transfer, FileHandle.unchanged, List.length_take, List.length_drop] at hlong
    omega
  | @more chunks reading hsome hfit hreads ih =>
    apply ih
    rcases hinitial with ⟨rest, rfl⟩
    rw [List.flatten_append, List.flatten_singleton, List.prefix_append_right_inj]
    simp only [next, transfer, FileHandle.unchanged, List.drop_left]
    exact (List.take_prefix _ _).trans (List.take_prefix _ _)

theorem readBoundedFile_unchanged (file : Bytes) {counts : Nat → Nat} (limit : Nat)
    (hcounts : ∀ n, 1 ≤ counts n)
    : ∃ reading,
      (∀ reads, limit + 2 ≤ reads
        → (unchanged file counts).readBoundedFile limit reads = some reading)
      ∧ reading.result = (Cli.readBoundedFile file limit).mapError .cli := by
  rcases exists_reads (unchanged file counts) [] (Nat.zero_le limit) with ⟨reading, hreads, hread⟩
  by_cases hlong : file.length > limit
  . refine ⟨_, fun reads _ => by rw [readBoundedFile, if_pos (.inr hlong)], ?_⟩
    rw [Cli.readBoundedFile, if_pos hlong]
    rfl
  . refine ⟨reading, ?_, ?_⟩
    . intro reads hle
      rw [readBoundedFile, if_neg (by simpa [unchanged] using hlong)]
      exact hread reads (by simpa using hle)
    . rw [hreads.unchanged hcounts (List.nil_prefix) (by omega), Cli.readBoundedFile, if_neg hlong]
      rfl

end FileHandle

end Cli

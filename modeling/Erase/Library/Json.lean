import Erase.Library.Decimal

/-!
JSON texts (RFC 8259) over code units. The units are those of the encoding the text is held in, so
string contents are kept as they were written and each reader gives them its own meaning.
-/

namespace Json

inductive Piece where
  | unit (code : Nat)
  /-- An escape sequence, as the UTF-16 code unit it denotes. -/
  | escaped (code : Nat)
  deriving DecidableEq, Repr

structure Literal where
  negative : Bool
  integer : List Nat
  fraction : Option (List Nat)
  /-- Whether the exponent is negative, and its digits. -/
  exponent : Option (Bool × List Nat)
  deriving DecidableEq, Repr

inductive Value where
  | null
  | bool (value : Bool)
  | number (literal : Literal)
  | string (pieces : List Piece)
  | array (elements : List Value)
  | object (members : List (List Piece × Value))
  deriving Repr

def isWhitespace (code : Nat) : Bool := code = 32 || code = 9 || code = 10 || code = 13

def skip (text : List Nat) : List Nat := text.dropWhile isWhitespace

def hexDigit? (code : Nat) : Option Nat :=
  if 48 ≤ code ∧ code ≤ 57 then some (code - 48)
  else if 65 ≤ code ∧ code ≤ 70 then some (code - 55)
  else if 97 ≤ code ∧ code ≤ 102 then some (code - 87)
  else none

def escape? (code : Nat) : Option Nat :=
  if code = 34 ∨ code = 92 ∨ code = 47 then some code
  else if code = 98 then some 8
  else if code = 102 then some 12
  else if code = 110 then some 10
  else if code = 114 then some 13
  else if code = 116 then some 9
  else none

/-- The contents of a string, from behind its opening quotation mark. -/
def stringBody? : List Nat → Option (List Piece × List Nat)
  | [] => none
  | 34 :: rest => some ([], rest)
  | 92 :: 117 :: a :: b :: c :: d :: rest => do
    let a ← hexDigit? a
    let b ← hexDigit? b
    let c ← hexDigit? c
    let d ← hexDigit? d
    let (pieces, rest) ← stringBody? rest
    some (.escaped (((a * 16 + b) * 16 + c) * 16 + d) :: pieces, rest)
  | 92 :: code :: rest => do
    let code ← escape? code
    let (pieces, rest) ← stringBody? rest
    some (.escaped code :: pieces, rest)
  | code :: rest =>
    if code < 32 then
      none
    else do
      let (pieces, rest) ← stringBody? rest
      some (.unit code :: pieces, rest)

def integer? (text : List Nat) : Option (List Nat × List Nat) :=
  match text with
  | 48 :: rest => some ([48], rest)
  | text =>
    let digits := text.takeWhile Decimal.isDigit
    if digits = [] then none else some (digits, text.dropWhile Decimal.isDigit)

def fraction? (text : List Nat) : Option (Option (List Nat) × List Nat) :=
  match text with
  | 46 :: rest =>
    let digits := rest.takeWhile Decimal.isDigit
    if digits = [] then none else some (some digits, rest.dropWhile Decimal.isDigit)
  | text => some (none, text)

def exponentDigits? (negative : Bool) (text : List Nat) : Option (Option (Bool × List Nat) × List Nat) :=
  let digits := text.takeWhile Decimal.isDigit
  if digits = [] then none else some (some (negative, digits), text.dropWhile Decimal.isDigit)

def exponent? (text : List Nat) : Option (Option (Bool × List Nat) × List Nat) :=
  match text with
  | code :: rest =>
    if code = 69 ∨ code = 101 then
      match rest with
      | 43 :: rest => exponentDigits? false rest
      | 45 :: rest => exponentDigits? true rest
      | rest => exponentDigits? false rest
    else
      some (none, text)
  | [] => some (none, [])

def sign (text : List Nat) : Bool × List Nat :=
  match text with
  | 45 :: rest => (true, rest)
  | text => (false, text)

def number? (text : List Nat) : Option (Literal × List Nat) := do
  let (negative, text) := sign text
  let (integer, text) ← integer? text
  let (fraction, text) ← fraction? text
  let (exponent, text) ← exponent? text
  some ({ negative, integer, fraction, exponent }, text)

mutual

def value? : (fuel : Nat) → List Nat → Option (Value × List Nat)
  | 0, _ => none
  | fuel + 1, text =>
    match skip text with
    | [] => none
    | code :: rest =>
      if code = 110 then
        if rest.take 3 = [117, 108, 108] then some (.null, rest.drop 3) else none
      else if code = 116 then
        if rest.take 3 = [114, 117, 101] then some (.bool true, rest.drop 3) else none
      else if code = 102 then
        if rest.take 4 = [97, 108, 115, 101] then some (.bool false, rest.drop 4) else none
      else if code = 34 then do
        let (pieces, rest) ← stringBody? rest
        some (.string pieces, rest)
      else if code = 91 then
        if (skip rest).head? = some 93 then
          some (.array [], (skip rest).tail)
        else do
          let (elements, rest) ← elements? fuel rest
          some (.array elements, rest)
      else if code = 123 then
        if (skip rest).head? = some 125 then
          some (.object [], (skip rest).tail)
        else do
          let (members, rest) ← members? fuel rest
          some (.object members, rest)
      else do
        let (literal, rest) ← number? (code :: rest)
        some (.number literal, rest)

def elements? : (fuel : Nat) → List Nat → Option (List Value × List Nat)
  | 0, _ => none
  | fuel + 1, text => do
    let (element, rest) ← value? fuel text
    match skip rest with
    | 44 :: rest => do
      let (elements, rest) ← elements? fuel rest
      some (element :: elements, rest)
    | 93 :: rest => some ([element], rest)
    | _ => none

def members? : (fuel : Nat) → List Nat → Option (List (List Piece × Value) × List Nat)
  | 0, _ => none
  | fuel + 1, text =>
    match skip text with
    | 34 :: rest => do
      let (key, rest) ← stringBody? rest
      match skip rest with
      | 58 :: rest => do
        let (member, rest) ← value? fuel rest
        match skip rest with
        | 44 :: rest => do
          let (members, rest) ← members? fuel rest
          some ((key, member) :: members, rest)
        | 125 :: rest => some ([(key, member)], rest)
        | _ => none
      | _ => none
    | _ => none

end

/--
A whole text. Every level of nesting consumes a unit, so the fuel covers every text.
-/
def parse? (text : List Nat) : Option Value := do
  let (value, rest) ← value? (2 * text.length + 2) text
  if skip rest = [] then some value else none

def hexCode (digit : Nat) : Nat := if digit < 10 then 48 + digit else 87 + digit

/-- A UTF-16 code unit as an escape sequence in lowercase hexadecimal. -/
def escapeUnit (code : Nat) : List Nat :=
  [92, 117, hexCode (code / 4096 % 16), hexCode (code / 256 % 16), hexCode (code / 16 % 16),
    hexCode (code % 16)]

/-- How a printer writes a code inside a string. -/
def quoteCode (code : Nat) : List Nat :=
  if code = 34 then [92, 34]
  else if code = 92 then [92, 92]
  else if code = 8 then [92, 98]
  else if code = 9 then [92, 116]
  else if code = 10 then [92, 110]
  else if code = 12 then [92, 102]
  else if code = 13 then [92, 114]
  else if code < 32 then escapeUnit code
  else [code]

/-- What a flat object holds: strings that need no escapes and natural numbers. -/
inductive Scalar where
  | text (codes : List Nat)
  | number (n : Nat)
  deriving DecidableEq, Repr

def isPlain (code : Nat) : Bool := 32 ≤ code && code ≠ 34 && code ≠ 92

theorem quoteCode_of_isPlain {code : Nat} (h : isPlain code = true) : quoteCode code = [code] := by
  simp only [isPlain, Bool.and_eq_true, decide_eq_true_eq, ne_eq, decide_not, Bool.not_eq_true',
    decide_eq_false_iff_not] at h
  simp only [quoteCode]
  repeat rw [if_neg (by omega)]

def Scalar.IsPlain : Scalar → Prop
  | .text codes => codes.all isPlain = true
  | .number _ => True

def Scalar.value : Scalar → Value
  | .text codes => .string (codes.map .unit)
  | .number n => .number ⟨false, Decimal.codes n, none, none⟩

def Scalar.print : Scalar → List Nat
  | .text codes => 34 :: codes ++ [34]
  | .number n => Decimal.codes n

def printMember (member : List Nat × Scalar) : List Nat :=
  34 :: member.1 ++ 34 :: 58 :: member.2.print

/-- The compact form of the members, each behind a comma. -/
def printRest (members : List (List Nat × Scalar)) : List Nat :=
  members.flatMap fun member => 44 :: printMember member

def printObject : List (List Nat × Scalar) → List Nat
  | [] => [123, 125]
  | member :: members => 123 :: printMember member ++ printRest members ++ [125]

theorem stringBody?_plain {codes : List Nat} (h : codes.all isPlain = true) (rest : List Nat) :
    stringBody? (codes ++ 34 :: rest) = some (codes.map .unit, rest) := by
  induction codes with
  | nil => simp [stringBody?]
  | cons code codes ih =>
    simp only [List.all_cons, Bool.and_eq_true] at h
    have hcode := h.1
    simp only [isPlain, Bool.and_eq_true, decide_eq_true_eq, ne_eq, decide_not] at hcode
    have hlow : ¬code < 32 := by omega
    rw [List.cons_append, stringBody?.eq_def]
    split
    . contradiction
    . simp_all
    . simp_all
    . simp_all
    . next heq =>
      simp only [List.cons.injEq] at heq
      rcases heq with ⟨rfl, rfl⟩
      simp [hlow, ih h.2]

theorem skip_cons {code : Nat} (h : isWhitespace code = false) (rest : List Nat) :
    skip (code :: rest) = code :: rest := by
  simp [skip, h]

theorem takeWhile_isDigit_append {codes : List Nat} (h : ∀ code ∈ codes, Decimal.isDigit code = true)
    {stop : Nat} (hstop : Decimal.isDigit stop = false) (rest : List Nat) :
    (codes ++ stop :: rest).takeWhile Decimal.isDigit = codes := by
  rw [List.takeWhile_append_of_pos h]
  simp [hstop]

theorem dropWhile_isDigit_append {codes : List Nat} (h : ∀ code ∈ codes, Decimal.isDigit code = true)
    {stop : Nat} (hstop : Decimal.isDigit stop = false) (rest : List Nat) :
    (codes ++ stop :: rest).dropWhile Decimal.isDigit = stop :: rest := by
  rw [List.dropWhile_append_of_pos h]
  simp [hstop]

/-- What may follow a number inside an object. -/
def isDelimiter (code : Nat) : Bool := code = 44 || code = 125

theorem isDelimiter_cases {code : Nat} (h : isDelimiter code = true) : code = 44 ∨ code = 125 := by
  simpa [isDelimiter] using h

theorem integer?_codes (n : Nat) {stop : Nat} (hstop : isDelimiter stop = true) (rest : List Nat) :
    integer? (Decimal.codes n ++ stop :: rest) = some (Decimal.codes n, stop :: rest) := by
  have hdigit : Decimal.isDigit stop = false := by
    rcases isDelimiter_cases hstop with rfl | rfl <;> decide
  have hall : ∀ code ∈ Decimal.codes n, Decimal.isDigit code = true :=
    fun code hcode => Decimal.isDigit_of_mem_codes hcode
  by_cases hzero : n = 0
  . subst hzero
    rw [Decimal.codes_of_lt_ten (by decide)]
    rfl
  . rcases Decimal.head?_codes hzero with ⟨code, tail, hcodes, hcode⟩
    have htake := takeWhile_isDigit_append hall hdigit rest
    have hdrop := dropWhile_isDigit_append hall hdigit rest
    rw [integer?.eq_def]
    split
    . next heq =>
      rw [hcodes, List.cons_append, List.cons.injEq] at heq
      exact absurd heq.1 hcode
    . simp only [htake, hdrop, Decimal.codes_ne_nil, ↓reduceIte]

theorem number?_codes (n : Nat) {stop : Nat} (hstop : isDelimiter stop = true) (rest : List Nat) :
    number? (Decimal.codes n ++ stop :: rest)
      = some (⟨false, Decimal.codes n, none, none⟩, stop :: rest) := by
  have hsign : sign (Decimal.codes n ++ stop :: rest) = (false, Decimal.codes n ++ stop :: rest) := by
    unfold sign
    split
    . next tail heq =>
      have hmem : 45 ∈ Decimal.codes n := by
        cases hcodes : Decimal.codes n with
        | nil => exact absurd hcodes (Decimal.codes_ne_nil n)
        | cons code codes =>
          rw [hcodes, List.cons_append, List.cons.injEq] at heq
          simp [heq.1]
      exact absurd (Decimal.isDigit_of_mem_codes hmem) (by decide)
    . rfl
  have hfraction : fraction? (stop :: rest) = some (none, stop :: rest) := by
    rcases isDelimiter_cases hstop with rfl | rfl <;> rfl
  have hexponent : exponent? (stop :: rest) = some (none, stop :: rest) := by
    rcases isDelimiter_cases hstop with rfl | rfl <;> rfl
  simp [number?, hsign, integer?_codes n hstop rest, hfraction, hexponent]

theorem value?_print {scalar : Scalar} (h : scalar.IsPlain) (fuel : Nat) {stop : Nat}
    (hstop : isDelimiter stop = true) (rest : List Nat) :
    value? (fuel + 1) (scalar.print ++ stop :: rest) = some (scalar.value, stop :: rest) := by
  cases scalar with
  | text codes =>
    have hskip : skip (34 :: (codes ++ 34 :: stop :: rest)) = 34 :: (codes ++ 34 :: stop :: rest) :=
      skip_cons (by decide) _
    simp only [Scalar.print, List.cons_append, List.append_assoc, List.nil_append, value?, hskip]
    simp [stringBody?_plain h, Scalar.value]
  | number n =>
    cases hcodes : Decimal.codes n with
    | nil => exact absurd hcodes (Decimal.codes_ne_nil n)
    | cons code codes =>
      have hdigit : Decimal.isDigit code = true :=
        Decimal.isDigit_of_mem_codes (n := n) (by simp [hcodes])
      simp only [Decimal.isDigit, Bool.and_eq_true, decide_eq_true_eq] at hdigit
      have hws : isWhitespace code = false := by
        simp only [isWhitespace, Bool.or_eq_false_iff, decide_eq_false_iff_not]
        omega
      have hnumber := number?_codes n hstop rest
      rw [hcodes, List.cons_append] at hnumber
      simp only [Scalar.print, Scalar.value, hcodes, List.cons_append, value?, skip_cons hws]
      rw [if_neg (by omega), if_neg (by omega), if_neg (by omega), if_neg (by omega),
        if_neg (by omega), if_neg (by omega), hnumber]
      rfl

theorem printMember_append (member : List Nat × Scalar) (rest : List Nat) :
    printMember member ++ rest = 34 :: (member.1 ++ 34 :: 58 :: (member.2.print ++ rest)) := by
  simp [printMember]

theorem members?_member {member : List Nat × Scalar} (hkey : member.1.all isPlain = true)
    (hvalue : member.2.IsPlain) (fuel : Nat) {stop : Nat} (hstop : isDelimiter stop = true)
    (rest : List Nat) :
    members? (fuel + 2) (printMember member ++ stop :: rest)
      = if stop = 44 then
          (members? (fuel + 1) rest).map fun result =>
            ((member.1.map .unit, member.2.value) :: result.1, result.2)
        else
          some ([(member.1.map .unit, member.2.value)], rest) := by
  have hskip : ∀ (tail : List Nat), skip (stop :: tail) = stop :: tail := by
    intro tail
    apply skip_cons
    rcases isDelimiter_cases hstop with rfl | rfl <;> decide
  have hmember := value?_print hvalue fuel hstop rest
  rw [printMember_append, members?, skip_cons (by decide)]
  simp only [stringBody?_plain hkey, Option.bind_eq_bind, Option.bind_some,
    skip_cons (show isWhitespace 58 = false by decide), hmember, hskip]
  rcases isDelimiter_cases hstop with rfl | rfl
  . simp only [↓reduceIte]
    cases members? (fuel + 1) rest <;> rfl
  . rfl

theorem members?_print {member : List Nat × Scalar} {members : List (List Nat × Scalar)}
    (h : ∀ entry ∈ member :: members, entry.1.all isPlain = true ∧ entry.2.IsPlain) (fuel : Nat)
    (hfuel : members.length ≤ fuel) (rest : List Nat) :
    members? (fuel + 2) (printMember member ++ printRest members ++ 125 :: rest)
      = some ((member :: members).map fun entry => (entry.1.map .unit, entry.2.value), rest) := by
  induction members generalizing member fuel with
  | nil =>
    obtain ⟨hkey, hvalue⟩ := h member (by simp)
    rw [printRest, List.flatMap_nil, List.append_nil, members?_member hkey hvalue fuel (by decide)]
    rfl
  | cons next members ih =>
    obtain ⟨hkey, hvalue⟩ := h member (by simp)
    have hrest : ∀ entry ∈ next :: members, entry.1.all isPlain = true ∧ entry.2.IsPlain :=
      fun entry hentry => h entry (List.mem_cons_of_mem _ hentry)
    cases fuel with
    | zero => simp at hfuel
    | succ fuel =>
      have htext : printMember member ++ printRest (next :: members) ++ 125 :: rest
          = printMember member ++ 44 :: (printMember next ++ printRest members ++ 125 :: rest) := by
        simp [printRest]
      rw [htext, members?_member hkey hvalue (fuel + 1) (by decide), if_pos rfl,
        ih hrest fuel (by simpa using hfuel)]
      rfl

theorem length_le_printRest (members : List (List Nat × Scalar)) :
    members.length ≤ (printRest members).length := by
  induction members with
  | nil => simp
  | cons member members ih =>
    simp only [printRest, List.flatMap_cons, List.length_append, List.length_cons] at ih ⊢
    omega

/--
A compactly printed flat object parses back to its members in their order.
-/
theorem parse?_printObject {members : List (List Nat × Scalar)}
    (h : ∀ entry ∈ members, entry.1.all isPlain = true ∧ entry.2.IsPlain) :
    parse? (printObject members)
      = some (.object (members.map fun entry => (entry.1.map .unit, entry.2.value))) := by
  cases members with
  | nil => rfl
  | cons member members =>
    have hlength := length_le_printRest members
    have hfuel : ∃ fuel, 2 * (printObject (member :: members)).length + 2 = fuel + 3
        ∧ members.length ≤ fuel := by
      refine ⟨2 * (printObject (member :: members)).length - 1, ?_, ?_⟩
      all_goals
        simp only [printObject, List.length_append, List.length_cons]
        omega
    rcases hfuel with ⟨fuel, hfuel, hmembers⟩
    have hparse := members?_print h fuel hmembers []
    have hhead : (skip (printMember member ++ printRest members ++ [125])).head? ≠ some 125 := by
      simp [printMember, skip_cons, isWhitespace]
    have htext : printObject (member :: members)
        = 123 :: (printMember member ++ printRest members ++ [125]) := by
      simp [printObject]
    rw [parse?, hfuel, htext, value?, skip_cons (by decide)]
    simp only [Nat.reduceEqDiff, ↓reduceIte, hhead, hparse]
    rfl

def Scalar.IsAscii : Scalar → Prop
  | .text codes => Ascii.IsAscii codes
  | .number _ => True

structure IsCompact (member : List Nat × Scalar) : Prop where
  key_isAscii : Ascii.IsAscii member.1
  key_isPlain : member.1.all isPlain = true
  isAscii : member.2.IsAscii
  isPlain : member.2.IsPlain

theorem isAscii_printMember {member : List Nat × Scalar} (h : IsCompact member)
    : Ascii.IsAscii (printMember member) := by
  have hvalue : Ascii.IsAscii member.2.print := by
    cases hscalar : member.2 with
    | text codes =>
      have hcodes := h.isAscii
      rw [hscalar] at hcodes
      intro code hcode
      simp only [Scalar.print, List.cons_append, List.mem_cons, List.mem_append, List.not_mem_nil,
        or_false] at hcode
      rcases hcode with rfl | hcode | rfl
      . decide
      . exact hcodes code hcode
      . decide
    | number n => exact Decimal.isAscii_codes n
  intro code hcode
  simp only [printMember, List.cons_append, List.mem_cons, List.mem_append] at hcode
  rcases hcode with rfl | hcode | rfl | rfl | hcode
  . decide
  . exact h.key_isAscii code hcode
  . decide
  . decide
  . exact hvalue code hcode

theorem isAscii_printObject {members : List (List Nat × Scalar)}
    (h : ∀ member ∈ members, IsCompact member)
    : Ascii.IsAscii (printObject members) := by
  cases members with
  | nil => decide
  | cons member members =>
    intro code hcode
    simp only [printObject, printRest, List.cons_append, List.mem_cons, List.mem_append,
      List.mem_flatMap, List.not_mem_nil, or_false] at hcode
    rcases hcode with rfl | (hcode | ⟨other, hother, rfl | hcode⟩) | rfl
    . decide
    . exact isAscii_printMember (h member (by simp)) code hcode
    . decide
    . exact isAscii_printMember (h other (List.mem_cons_of_mem _ hother)) code hcode
    . decide

end Json

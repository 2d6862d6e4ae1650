import Mathlib.Data.List.Basic
import CodexServer.Library.Hexadecimal

/-!
# JSON text

Readers and printers of compact JSON. A reader takes a value from the beginning of a text; it reads
what a printer writes if the value comes back whatever follows. The escapes of surrogates, which no
printer here writes, are not read.
-/

open Hexadecimal

namespace JsonText

/-- A value at the beginning of a text, and what follows it. -/
abbrev Reader (Value : Type) := List Char → Option (Value × List Char)

section

variable {Value Other : Type}

/-- The reader is the inverse of the printer. -/
def Reads (reader : Reader Value) (print : Value → List Char) : Prop :=
  ∀ value rest, reader (print value ++ rest) = some (value, rest)

/-! ### Strings -/

/-- The characters with an escape of one letter. -/
def escapes : List (Char × Char) :=
  [('"', '"'), ('\\', '\\'), ('\n', 'n'), ('\r', 'r'), ('\t', 't'), ('\x08', 'b'), ('\x0c', 'f')]

def escapeChar (c : Char) : List Char :=
  match escapes.lookup c with
  | some letter => ['\\', letter]
  | none =>
      if c.toNat < 32 then
        ['\\', 'u', '0', '0', hexDigit .small (c.toNat / 16), hexDigit .small (c.toNat % 16)]
      else [c]

def printString (text : List Char) : List Char := '"' :: (text.flatMap escapeChar ++ ['"'])

def unescape (letter : Char) : Option Char :=
  if letter = '/' then some '/' else (escapes.find? fun entry => entry.2 = letter).map Prod.fst

/-- The character of a four-digit escape. -/
def codeChar (a b c d : Char) : Option Char := do
  let code := 4096 * (← hexValue a) + 256 * (← hexValue b) + 16 * (← hexValue c) + (← hexValue d)
  if code < 0xd800 ∨ 0xe000 ≤ code then some (.ofNat code) else none

/-- The rest of a string, from after its opening quote. -/
def readChars : Reader (List Char)
  | [] => none
  | c :: rest =>
      if c = '"' then some ([], rest)
      else if c = '\\' then
        match rest with
        | 'u' :: a :: b :: c :: d :: rest => do
            let char ← codeChar a b c d
            let (text, rest) ← readChars rest
            some (char :: text, rest)
        | letter :: rest => do
            let char ← unescape letter
            let (text, rest) ← readChars rest
            some (char :: text, rest)
        | [] => none
      else if c.toNat < 32 then none
      else do
        let (text, rest) ← readChars rest
        some (c :: text, rest)

def readString : Reader (List Char)
  | '"' :: rest => readChars rest
  | _ => none

/-! ### Sequences and pairs -/

/-- The rest of a sequence that has at least one more item. -/
def readItems (item : Reader Value) (close : Char) : Nat → Reader (List Value)
  | 0, _ => none
  | fuel + 1, text => do
      let (value, rest) ← item text
      match rest with
      | [] => none
      | c :: rest =>
          if c = ',' then
            let (values, rest) ← readItems item close fuel rest
            some (value :: values, rest)
          else if c = close then some ([value], rest)
          else none

def readSequence (opening close : Char) (item : Reader Value) : Reader (List Value)
  | [] => none
  | c :: rest =>
      if c ≠ opening then none
      else if rest.head? = some close then some ([], rest.tail)
      else readItems item close rest.length rest

def printSequence (opening close : Char) (print : Value → List Char) (values : List Value) :
    List Char :=
  opening :: ([','].intercalate (values.map print) ++ [close])

def readPair (first : Reader Value) (second : Reader Other) : Reader (Value × Other) :=
  fun text => do
  let (value, rest) ← first text
  match rest with
  | ':' :: rest => do
      let (other, rest) ← second rest
      some ((value, other), rest)
  | _ => none

def printPair (first : Value → List Char) (second : Other → List Char) (pair : Value × Other) :
    List Char :=
  first pair.1 ++ ':' :: second pair.2

/-! ### Round trips -/

theorem unescape_of_mem : ∀ entry ∈ escapes,
    entry.2 ≠ 'u' ∧ unescape entry.2 = some entry.1 := by decide

theorem codeChar_control : ∀ code < 32, codeChar '0' '0' (hexDigit .small (code / 16))
    (hexDigit .small (code % 16)) = some (.ofNat code) := by decide

theorem readChars_quote (rest : List Char) : readChars ('"' :: rest) = some ([], rest) := by
  rw [readChars.eq_def]
  rfl

theorem readChars_plain {c : Char} (hquote : c ≠ '"') (hslash : c ≠ '\\') (hcontrol : ¬c.toNat < 32)
    (rest : List Char) : readChars (c :: rest) =
      (readChars rest).map fun reading => (c :: reading.1, reading.2) := by
  rw [readChars.eq_def]
  simp only [hquote, hslash, hcontrol, if_false]
  cases readChars rest <;> rfl

theorem readChars_letter {c letter : Char} (hmem : (c, letter) ∈ escapes) (rest : List Char) :
    readChars ('\\' :: letter :: rest) =
      (readChars rest).map fun reading => (c :: reading.1, reading.2) := by
  obtain ⟨hne, hletter⟩ := unescape_of_mem _ hmem
  rw [readChars.eq_def]
  show (if '\\' = '"' then _ else if '\\' = '\\' then _ else _) = _
  rw [if_neg (by decide), if_pos rfl]
  split
  · rename_i hsame
    exact absurd (List.cons.inj hsame).1 hne
  · rename_i hsame
    obtain ⟨rfl, rfl⟩ := List.cons.inj hsame
    rw [hletter]
    cases readChars rest <;> rfl
  · rename_i hsame
    cases hsame

theorem readChars_code {code : Nat} (hcontrol : code < 32) (rest : List Char) :
    readChars ('\\' :: 'u' :: '0' :: '0' :: hexDigit .small (code / 16) ::
        hexDigit .small (code % 16) :: rest) =
      (readChars rest).map fun reading => (.ofNat code :: reading.1, reading.2) := by
  rw [readChars.eq_def]
  simp only [codeChar_control code hcontrol]
  cases readChars rest <;> rfl

theorem readChars_escape (c : Char) (rest : List Char) :
    readChars (escapeChar c ++ rest) =
      (readChars rest).map fun reading => (c :: reading.1, reading.2) := by
  unfold escapeChar
  split
  · rename_i letter hletter
    obtain ⟨before, after, hsplit, -⟩ := List.lookup_eq_some_iff.mp hletter
    exact readChars_letter (by rw [hsplit]; simp) rest
  · rename_i hnone
    split
    · rename_i hcontrol
      have hcode := readChars_code hcontrol rest
      rwa [Char.ofNat_toNat] at hcode
    · rename_i hcontrol
      have hkeys : ∀ entry ∈ escapes, c ≠ entry.1 := by
        simpa using List.lookup_eq_none_iff.mp hnone
      exact readChars_plain (hkeys ('"', '"') (by decide)) (hkeys ('\\', '\\') (by decide)) hcontrol
        rest

theorem readChars_printed (text rest : List Char) :
    readChars (text.flatMap escapeChar ++ '"' :: rest) = some (text, rest) := by
  induction text with
  | nil => exact readChars_quote rest
  | cons c text ih =>
      rw [List.flatMap_cons, List.append_assoc, readChars_escape, ih]
      rfl

theorem reads_string : Reads readString printString := by
  intro text rest
  have hprinted : printString text ++ rest = '"' :: (text.flatMap escapeChar ++ '"' :: rest) := by
    simp [printString]
  rw [hprinted, readString, readChars_printed]

/-- The reader is the inverse of the printer on such values, before such a rest. -/
def ReadsOn (isValue : Value → Prop) (isRest : List Char → Prop) (reader : Reader Value)
    (print : Value → List Char) : Prop :=
  ∀ value rest, isValue value → isRest rest → reader (print value ++ rest) = some (value, rest)

theorem Reads.on {reader : Reader Value} {print : Value → List Char} (h : Reads reader print)
    (isValue : Value → Prop) (isRest : List Char → Prop) : ReadsOn isValue isRest reader print :=
  fun value rest _ _ => h value rest

theorem ReadsOn.pair {first : Reader Value} {second : Reader Other} {print : Value → List Char}
    {print' : Other → List Char} {isOther : Other → Prop} {isRest : List Char → Prop}
    (h : Reads first print) (h' : ReadsOn isOther isRest second print') :
    ReadsOn (fun pair => isOther pair.2) isRest (readPair first second)
      (printPair print print') := by
  intro pair rest hpair hrest
  unfold readPair printPair
  rw [List.append_assoc, h]
  show ((second (print' pair.2 ++ rest)).bind fun _ => _) = _
  rw [h' _ _ hpair hrest]
  rfl

theorem Reads.pair {first : Reader Value} {second : Reader Other} {print : Value → List Char}
    {print' : Other → List Char} (h : Reads first print) (h' : Reads second print') :
    Reads (readPair first second) (printPair print print') := fun pair rest =>
  ReadsOn.pair h (h'.on (fun _ => True) fun _ => True) pair rest trivial trivial

section

variable {item : Reader Value} {print : Value → List Char} {close : Char} {isValue : Value → Prop}
  {isRest : List Char → Prop}

theorem length_le_printed {values : List Value} (hprint : ∀ value ∈ values, print value ≠ []) :
    values.length ≤ ([','].intercalate (values.map print)).length := by
  induction values with
  | nil => simp
  | cons value values ih =>
      obtain ⟨hvalue, hvalues⟩ := List.forall_mem_cons.mp hprint
      have hpos := List.length_pos_iff.mpr hvalue
      cases values with
      | nil =>
          rw [List.map_cons, List.map_nil, List.intercalate_singleton]
          exact hpos
      | cons other values =>
          have hlater := ih hvalues
          rw [List.map_cons, List.map_cons, List.intercalate_cons_cons]
          simp only [List.map_cons, List.length_cons, List.length_append, List.length_nil]
            at hlater ⊢
          omega

/-- An item is no longer than the sequence it is printed in. -/
theorem length_le_intercalate {values : List Value} {value : Value} (h : value ∈ values) :
    (print value).length ≤ ([','].intercalate (values.map print)).length := by
  induction values with
  | nil => cases h
  | cons first values ih =>
      cases values with
      | nil =>
          obtain rfl := List.mem_singleton.mp h
          simp [List.intercalate_singleton]
      | cons other values =>
          rw [List.map_cons, List.map_cons, List.intercalate_cons_cons, List.length_append,
            List.length_append]
          rcases List.mem_cons.mp h with rfl | hlater
          · omega
          · have hle := ih hlater
            rw [List.map_cons] at hle
            omega

/-- What is read as an item is an item of the sequence. -/
theorem forall_of_readItems {isItem : Value → Prop}
    (h : ∀ text value rest, item text = some (value, rest) → isItem value) {fuel : Nat}
    {text rest : List Char} {values : List Value}
    (hread : readItems item close fuel text = some (values, rest)) :
    ∀ value ∈ values, isItem value := by
  induction fuel generalizing text values with
  | zero => cases hread
  | succ fuel ih =>
      obtain ⟨⟨value, later⟩, hvalue, hread⟩ := Option.bind_eq_some_iff.mp hread
      have hitem := h _ _ _ hvalue
      dsimp only at hread
      split at hread
      · cases hread
      · split at hread
        · obtain ⟨⟨others, _⟩, hothers, hread⟩ := Option.bind_eq_some_iff.mp hread
          cases hread
          exact List.forall_mem_cons.mpr ⟨hitem, ih hothers⟩
        · split at hread
          · cases hread
            exact List.forall_mem_cons.mpr ⟨hitem, by simp⟩
          · cases hread

theorem forall_of_readSequence {isItem : Value → Prop}
    (h : ∀ text value rest, item text = some (value, rest) → isItem value) {opening : Char}
    {text rest : List Char} {values : List Value}
    (hread : readSequence opening close item text = some (values, rest)) :
    ∀ value ∈ values, isItem value := by
  cases text with
  | nil => cases hread
  | cons c text =>
      rw [readSequence] at hread
      split at hread
      · cases hread
      · split at hread
        · cases hread
          simp
        · exact forall_of_readItems h hread

/-- Before what a sequence goes on with. -/
def Separated (close : Char) (isRest : List Char → Prop) : Prop :=
  ∀ rest, isRest (',' :: rest) ∧ isRest (close :: rest)

theorem ReadsOn.items (h : ReadsOn isValue isRest item print) (hrest : Separated close isRest)
    (hclose : close ≠ ',') {value : Value} {values : List Value} (rest : List Char)
    (hvalues : ∀ other ∈ value :: values, isValue other) {fuel : Nat}
    (hfuel : values.length < fuel) :
    readItems item close fuel ([','].intercalate ((value :: values).map print) ++ close :: rest) =
      some (value :: values, rest) := by
  induction values generalizing value fuel with
  | nil =>
      obtain ⟨fuel, rfl⟩ := Nat.exists_eq_succ_of_ne_zero (Nat.ne_zero_of_lt hfuel)
      rw [List.map_cons, List.map_nil, List.intercalate_singleton, readItems,
        h value _ (hvalues _ List.mem_cons_self) (hrest rest).2]
      show (if close = ',' then _ else if close = close then _ else _) = _
      rw [if_neg hclose, if_pos rfl]
  | cons other values ih =>
      obtain ⟨fuel, rfl⟩ := Nat.exists_eq_succ_of_ne_zero (Nat.ne_zero_of_lt hfuel)
      obtain ⟨hvalue, hothers⟩ := List.forall_mem_cons.mp hvalues
      have hlater := ih hothers (Nat.lt_of_succ_lt_succ hfuel)
      rw [List.map_cons] at hlater
      rw [List.map_cons, List.map_cons, List.intercalate_cons_cons, List.append_assoc,
        List.append_assoc, List.singleton_append, readItems, h value _ hvalue (hrest _).1]
      show (readItems item close fuel (_ ++ close :: rest)).bind _ = _
      rw [hlater]
      rfl

/-- A sequence of things that do not begin like its end. -/
theorem ReadsOn.sequence (opening close : Char) (h : ReadsOn isValue isRest item print)
    (hrest : Separated close isRest) (hclose : close ≠ ',')
    (hprint : ∀ value, isValue value → print value ≠ [] ∧ (print value).head? ≠ some close) :
    ReadsOn (fun values => ∀ value ∈ values, isValue value) (fun _ => True)
      (readSequence opening close item) (printSequence opening close print) := by
  intro values rest hvalues _
  cases values with
  | nil => simp [readSequence, printSequence]
  | cons value values =>
      have hfuel := length_le_printed fun other hother => (hprint other (hvalues other hother)).1
      obtain ⟨hprinted, hhead⟩ := hprint value (hvalues _ List.mem_cons_self)
      have hbegins : ([','].intercalate ((value :: values).map print) ++ close :: rest).head? =
          (print value).head? := by
        obtain ⟨c, later, hprinted⟩ := List.exists_cons_of_ne_nil hprinted
        cases values with
        | nil =>
            rw [List.map_cons, List.map_nil, List.intercalate_singleton, hprinted]
            rfl
        | cons other values =>
            rw [List.map_cons, List.map_cons, List.intercalate_cons_cons, hprinted]
            rfl
      unfold printSequence
      rw [List.cons_append, List.append_assoc, List.singleton_append, readSequence]
      rw [if_neg (not_not.mpr rfl), hbegins, if_neg hhead]
      refine h.items hrest hclose rest hvalues ?_
      rw [List.length_append, List.length_cons]
      exact Nat.lt_of_lt_of_le hfuel (Nat.le_add_right _ _)

theorem Reads.sequence (opening close : Char) (h : Reads item print) (hclose : close ≠ ',')
    (hprint : ∀ value, print value ≠ [] ∧ (print value).head? ≠ some close) :
    Reads (readSequence opening close item) (printSequence opening close print) :=
  fun values rest => ReadsOn.sequence opening close (h.on (fun _ => True) fun _ => True)
    (fun _ => ⟨trivial, trivial⟩) hclose (fun value _ => hprint value) values rest
    (fun _ _ => trivial) trivial

end

/-! ### Numbers -/

/-- Digits, which end where there is no other. -/
def readDigits : Reader Nat := fun text =>
  let digits := text.takeWhile Char.isDigit
  if digits = [] then none
  else some (Nat.ofDigitChars 10 digits 0, text.dropWhile Char.isDigit)

/-- No digit follows. -/
def EndsDigits (rest : List Char) : Prop := ∀ c, rest.head? = some c → c.isDigit = false

theorem endsDigits_cons {c : Char} (h : c.isDigit = false) (rest : List Char) :
    EndsDigits (c :: rest) := by
  rintro other ⟨⟩
  exact h

theorem reads_digits : ReadsOn (fun _ => True) EndsDigits readDigits (Nat.toDigits 10) := by
  intro number rest _ hrest
  have hdigits : ∀ c ∈ Nat.toDigits 10 number, c.isDigit = true := fun c hc =>
    Nat.isDigit_of_mem_toDigits (by omega) (Nat.le_refl 10) hc
  have hnone : rest.takeWhile Char.isDigit = [] ∧ rest.dropWhile Char.isDigit = rest := by
    cases rest with
    | nil => exact ⟨rfl, rfl⟩
    | cons c rest =>
        have hc := hrest c rfl
        simp [hc]
  unfold readDigits
  dsimp only
  rw [List.takeWhile_append_of_pos hdigits, List.dropWhile_append_of_pos hdigits, hnone.1, hnone.2,
    List.append_nil, if_neg Nat.toDigits_ne_nil, Nat.ofDigitChars_ten_toDigits]

def readInt : Reader Int
  | '-' :: rest => (readDigits rest).map fun reading => (-reading.1, reading.2)
  | text => (readDigits text).map fun reading => (reading.1, reading.2)

def printInt : Int → List Char
  | .ofNat number => Nat.toDigits 10 number
  | .negSucc number => '-' :: Nat.toDigits 10 (number + 1)

theorem reads_int : ReadsOn (fun _ => True) EndsDigits readInt printInt := by
  intro number rest _ hrest
  cases number with
  | negSucc number =>
      change (readDigits (Nat.toDigits 10 (number + 1) ++ rest)).map _ = _
      rw [reads_digits _ _ trivial hrest]
      rfl
  | ofNat number =>
      change readInt (Nat.toDigits 10 number ++ rest) = _
      have hread := reads_digits number rest trivial hrest
      unfold readInt
      split
      · next later hminus =>
          -- the first character is a digit
          have hmem : '-' ∈ Nat.toDigits 10 number := by
            cases hdigits : Nat.toDigits 10 number with
            | nil => exact absurd hdigits Nat.toDigits_ne_nil
            | cons c digits =>
                rw [hdigits] at hminus
                cases hminus
                exact List.mem_cons_self
          exact absurd (Nat.isDigit_of_mem_toDigits (by omega) (Nat.le_refl 10) hmem) (by decide)
      · rw [hread]
        rfl

end
end JsonText

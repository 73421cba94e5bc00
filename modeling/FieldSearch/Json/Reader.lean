import FieldSearch.Json.Fault
import FieldSearch.Text.Rest
import FieldSearch.Text.Utf8

/-!
Reading documents from left to right. A reader takes one value from the front of a text and says what
is left; the first thing that is wrong in reading order ends the reading. Values that nobody wants are
read with less care: what their strings and numbers stand for is not looked at, and they may be nested
to any depth.
-/

namespace FieldSearch.Json

/-- Reads a value from the front of a text. -/
abbrev Reader (α : Type) : Type :=
  (s : List Char) → Except Fault (α × Rest s)

/-- Reads a value from the front of texts shorter than `n`. -/
abbrev ReaderBelow (n : Nat) (α : Type) : Type :=
  (s : List Char) → s.length < n → Except Fault (α × Rest s)

/-- What a value is read for. One that is kept may hold arrays and objects nested to a depth. -/
inductive Purpose
  | keep (depth : Nat)
  | skip
  deriving DecidableEq, Repr

namespace Purpose

/-- The purpose of the values inside an array or object, if there may be one. -/
def inside? : Purpose → Option Purpose
  | keep 0 => none
  | keep (depth + 1) => some (keep depth)
  | skip => some skip

def isSkip : Purpose → Bool
  | keep _ => false
  | skip => true

end Purpose

def isBlank (c : Char) : Bool :=
  c == ' ' || c == '\n' || c == '\t' || c == '\r'

def skipBlanks (s : List Char) : List Char :=
  s.dropWhile isBlank

theorem length_skipBlanks_le (s : List Char) : (skipBlanks s).length ≤ s.length :=
  length_dropWhile_le isBlank s

variable {α σ : Type} {n : Nat}

/-- A rest of what stands behind blanks. -/
def behindBlanks {s : List Char} (rest : Rest (skipBlanks s)) : Rest s :=
  rest.within (length_skipBlanks_le s)

/-- The reader behind blanks. -/
def afterBlanks (reader : Reader α) : Reader α := fun s =>
  (reader (skipBlanks s)).map fun (a, rest) => (a, behindBlanks rest)

/-- The reader behind blanks. -/
def ReaderBelow.afterBlanks (reader : ReaderBelow n α) : ReaderBelow n α := fun s h =>
  (reader (skipBlanks s) (Nat.lt_of_le_of_lt (length_skipBlanks_le s) h)).map fun (a, rest) =>
    (a, behindBlanks rest)

/-- The first character that is no blank, and what follows it. -/
def next? (s : List Char) : Option (Char × Rest s) :=
  match h : skipBlanks s with
  | [] => none
  | c :: r => some (c, ⟨r, by
      have := length_skipBlanks_le s
      rw [h] at this
      exact this⟩)

/-- One character that has to stand here. -/
def exactly (c : Char) : (s : List Char) → Except Fault (Rest s)
  | [] => .error .truncated
  | d :: _ => if d = c then .ok .tail else .error .malformed

/-- One character that has to be the next, blanks aside. -/
def mark (c : Char) (s : List Char) : Except Fault (Rest s) :=
  (exactly c (skipBlanks s)).map behindBlanks

/-! ### Words, strings and numbers -/

/-- What follows a word that has to stand here. -/
def afterWord : List Char → List Char → Except Fault (List Char)
  | [], s => .ok s
  | _ :: _, [] => .error .truncated
  | w :: ws, c :: s => if c = w then afterWord ws s else .error .malformed

theorem length_afterWord {word s r : List Char} (h : afterWord word s = .ok r) :
    s.length = word.length + r.length := by
  induction word generalizing s with
  | nil => simp_all [afterWord]
  | cons w ws ih =>
    cases s with
    | nil => simp [afterWord] at h
    | cons c s =>
      simp only [afterWord] at h
      split at h
      · have := ih h
        simp only [List.length_cons]
        omega
      · simp at h

/-- A word, whose first character is known to stand here. -/
def word (chars : List Char) (ne : chars ≠ []) (s : List Char) : Except Fault (Rest s) :=
  match h : afterWord chars s with
  | .error fault => .error fault
  | .ok r => .ok ⟨r, by
      have := length_afterWord h
      have := List.length_pos_iff.2 ne
      omega⟩

def nullWord (s : List Char) : Except Fault (Rest s) :=
  word ['n', 'u', 'l', 'l'] (by simp) s

def trueWord (s : List Char) : Except Fault (Rest s) :=
  word ['t', 'r', 'u', 'e'] (by simp) s

def falseWord (s : List Char) : Except Fault (Rest s) :=
  word ['f', 'a', 'l', 's', 'e'] (by simp) s

def hexValue? (c : Char) : Option Nat :=
  if c.isDigit then some (c.toNat - '0'.toNat)
  else if 'a' ≤ c ∧ c ≤ 'f' then some (c.toNat - 'a'.toNat + 10)
  else if 'A' ≤ c ∧ c ≤ 'F' then some (c.toNat - 'A'.toNat + 10)
  else none

/-- A number of four hexadecimal digits. The text is truncated if it has less than four more bytes. -/
def unit (s : List Char) : Except Fault (Nat × Rest s) :=
  match s with
  | a :: b :: c :: d :: r =>
    match hexValue? a, hexValue? b, hexValue? c, hexValue? d with
    | some a, some b, some c, some d =>
      .ok (((a * 16 + b) * 16 + c) * 16 + d, ⟨r, by simp only [List.length_cons]; omega⟩)
    | _, _, _, _ => .error .malformed
  | short => .error (if Text.utf8Length short < 4 then .truncated else .malformed)

def isHighSurrogate (unit : Nat) : Bool :=
  0xD800 ≤ unit && unit ≤ 0xDBFF

def isLowSurrogate (unit : Nat) : Bool :=
  0xDC00 ≤ unit && unit ≤ 0xDFFF

/-- The character with a code given in hexadecimal, for which two units may be needed. -/
def codePoint (purpose : Purpose) (s : List Char) : Except Fault (Char × Rest s) :=
  match unit s with
  | .error fault => .error fault
  | .ok (first, rest) =>
    if purpose.isSkip then .ok ('\x00', rest)
    else if isLowSurrogate first then .error .malformed
    else if isHighSurrogate first then
      match exactly '\\' rest.chars with
      | .error fault => .error fault
      | .ok slash =>
        match exactly 'u' slash.chars with
        | .error fault => .error fault
        | .ok letter =>
          match unit letter.chars with
          | .error fault => .error fault
          | .ok (second, last) =>
            if isLowSurrogate second then
              .ok (Char.ofNat (0x10000 + (first - 0xD800) * 0x400 + (second - 0xDC00)),
                rest.after (slash.after (letter.after last)))
            else .error .malformed
    else .ok (Char.ofNat first, rest)

/-- The character that the text behind a backslash stands for. -/
def escaped (purpose : Purpose) (s : List Char) : Except Fault (Char × Rest s) :=
  match s with
  | [] => .error .truncated
  | 'u' :: r => (codePoint purpose r).map fun (c, rest) => (c, rest.behind)
  | '"' :: _ => .ok ('"', .tail)
  | '\\' :: _ => .ok ('\\', .tail)
  | '/' :: _ => .ok ('/', .tail)
  | 'b' :: _ => .ok ('\x08', .tail)
  | 'f' :: _ => .ok ('\x0c', .tail)
  | 'n' :: _ => .ok ('\n', .tail)
  | 'r' :: _ => .ok ('\r', .tail)
  | 't' :: _ => .ok ('\t', .tail)
  | _ => .error .malformed

/-- The characters of a string up to the quote that closes it. -/
def stringChars (purpose : Purpose) (s : List Char) : Except Fault (List Char × Rest s) :=
  match s with
  | [] => .error .truncated
  | c :: r =>
    if c = '"' then .ok ([], .tail)
    else if c = '\\' then
      match escaped purpose r with
      | .error fault => .error fault
      | .ok (d, rest) =>
        match stringChars purpose rest.chars with
        | .error fault => .error fault
        | .ok (ds, last) => .ok (d :: ds, (rest.after last).behind)
    else if c.toNat < 0x20 then .error .malformed
    else
      match stringChars purpose r with
      | .error fault => .error fault
      | .ok (ds, last) => .ok (c :: ds, last.behind)
termination_by s.length
decreasing_by
  · exact rest.behind.shorter
  · exact length_lt_cons c r

/-- A string, behind the quote that opens it. -/
def openedString (purpose : Purpose) : Reader String := fun s =>
  (stringChars purpose s).map fun (chars, rest) => (String.ofList chars, rest)

/-- The end of the text where a digit has to stand. -/
def numberCut (purpose : Purpose) : Fault :=
  if purpose.isSkip then .malformed else .truncated

/-- A run of digits, of which there has to be one. -/
def digits (purpose : Purpose) (s : List Char) : Except Fault (List Char × Rest s) :=
  match s with
  | [] => .error (numberCut purpose)
  | c :: r =>
    if c.isDigit then
      .ok (c :: r.takeWhile Char.isDigit, ⟨r.dropWhile Char.isDigit, by
        have := length_dropWhile_le Char.isDigit r
        simp only [List.length_cons]
        omega⟩)
    else .error .malformed

/-- The digits before a point; zero stands alone. -/
def wholeDigits (purpose : Purpose) (s : List Char) : Except Fault (List Char × Rest s) :=
  match digits purpose s with
  | .ok ('0' :: _ :: _, _) => .error .malformed
  | other => other

/-- The digits behind a point, none without one. -/
def fractionDigits (purpose : Purpose) {s : List Char} (rest : Rest s) :
    Except Fault (List Char × Rest s) :=
  match Rest.first? (· == '.') rest.chars with
  | none => .ok ([], rest)
  | some point =>
    (digits purpose point.chars).map fun (ds, last) => (ds, rest.after (point.after last))

/-- A sign, `true` for a minus, where there may be one. -/
def optionalSign {s : List Char} (rest : Rest s) : Bool × Rest s :=
  match Rest.first? (· == '-') rest.chars with
  | some minus => (true, rest.after minus)
  | none =>
    match Rest.first? (· == '+') rest.chars with
    | some plus => (false, rest.after plus)
    | none => (false, rest)

/-- The sign and the digits of an exponent, if there is one. -/
def exponentDigits (purpose : Purpose) {s : List Char} (rest : Rest s) :
    Except Fault (Option (Bool × List Char) × Rest s) :=
  match Rest.first? (fun c => c == 'e' || c == 'E') rest.chars with
  | none => .ok (none, rest)
  | some letter =>
    let (negative, start) := optionalSign (rest.after letter)
    (digits purpose start.chars).map fun (ds, last) => (some (negative, ds), start.after last)

/-- A number as written, without its sign. -/
def unsignedNumber (purpose : Purpose) (negative : Bool) (s : List Char) :
    Except Fault (NumberText × Rest s) :=
  match wholeDigits purpose s with
  | .error fault => .error fault
  | .ok (whole, rest) =>
    match fractionDigits purpose rest with
    | .error fault => .error fault
    | .ok (fraction, rest) =>
      (exponentDigits purpose rest).map fun (exponent, rest) =>
        (⟨negative, whole, fraction, exponent⟩, rest)

/-- What a number denotes. One that is too large to be kept makes the text malformed. -/
def numberOf (purpose : Purpose) (text : NumberText) : Except Fault Number :=
  if purpose.isSkip then .ok (.integer 0)
  else
    match Number.ofText? text with
    | some number => .ok number
    | none => .error .malformed

def readNumber (purpose : Purpose) (s : List Char) : Except Fault (Number × Rest s) :=
  match Rest.first? (· == '-') s with
  | some minus =>
    match unsignedNumber purpose true minus.chars with
    | .error fault => .error fault
    | .ok (text, rest) => (numberOf purpose text).map fun number => (number, minus.after rest)
  | none =>
    match unsignedNumber purpose false s with
    | .error fault => .error fault
    | .ok (text, rest) => (numberOf purpose text).map fun number => (number, rest)

/-! ### Arrays and objects -/

/-- The elements of an array behind an element, up to the bracket that closes it. -/
def moreElements (item : ReaderBelow n α) (s : List Char) (h : s.length < n) :
    Except Fault (List α × Rest s) :=
  match next? s with
  | none => .error .truncated
  | some (c, rest) =>
    if c = ']' then .ok ([], rest)
    else if c = ',' then
      match next? rest.chars with
      | none => .error .truncated
      | some (d, _) =>
        if d = ']' then .error .malformed
        else
          match item.afterBlanks rest.chars (rest.lt h) with
          | .error fault => .error fault
          | .ok (a, following) =>
            match moreElements item following.chars (following.lt (rest.lt h)) with
            | .error fault => .error fault
            | .ok (as, last) => .ok (a :: as, rest.after (following.after last))
    else .error .malformed
termination_by s.length
decreasing_by exact following.lt rest.shorter

/-- The elements of an array, behind the bracket that opens it. -/
def elements (item : ReaderBelow n α) (s : List Char) (h : s.length < n) :
    Except Fault (List α × Rest s) :=
  match next? s with
  | none => .error .truncated
  | some (c, rest) =>
    if c = ']' then .ok ([], rest)
    else
      match item.afterBlanks s h with
      | .error fault => .error fault
      | .ok (a, following) =>
        match moreElements item following.chars (following.lt h) with
        | .error fault => .error fault
        | .ok (as, last) => .ok (a :: as, following.after last)

/-- One member of an object: a key, which may be refused before its value is looked at, a colon and a
value. -/
def keyed (purpose : Purpose) (item : σ → String → Except Fault (ReaderBelow n σ)) (state : σ) :
    ReaderBelow n σ := fun s h =>
  match s with
  | [] => .error .truncated
  | c :: r =>
    if c = '"' then
      match openedString purpose r with
      | .error fault => .error fault
      | .ok (key, rest) =>
        match item state key with
        | .error fault => .error fault
        | .ok reader =>
          match mark ':' rest.chars with
          | .error fault => .error fault
          | .ok value =>
            match reader.afterBlanks value.chars (value.lt (rest.behind.lt h)) with
            | .error fault => .error fault
            | .ok (next, last) => .ok (next, (rest.after (value.after last)).behind)
    else .error .malformed

/-- The members of an object behind a member, up to the brace that closes it. -/
def moreMembers (purpose : Purpose) (item : σ → String → Except Fault (ReaderBelow n σ))
    (state : σ) (s : List Char) (h : s.length < n) : Except Fault (σ × Rest s) :=
  match next? s with
  | none => .error .truncated
  | some (c, rest) =>
    if c = '\x7d' then .ok (state, rest)
    else if c = ',' then
      match (keyed purpose item state).afterBlanks rest.chars (rest.lt h) with
      | .error fault => .error fault
      | .ok (next, following) =>
        match moreMembers purpose item next following.chars (following.lt (rest.lt h)) with
        | .error fault => .error fault
        | .ok (final, last) => .ok (final, rest.after (following.after last))
    else .error .malformed
termination_by s.length
decreasing_by exact following.lt rest.shorter

/-- The members of an object, behind the brace that opens it. -/
def members (purpose : Purpose) (item : σ → String → Except Fault (ReaderBelow n σ)) (state : σ)
    (s : List Char) (h : s.length < n) : Except Fault (σ × Rest s) :=
  match next? s with
  | none => .error .truncated
  | some (c, rest) =>
    if c = '\x7d' then .ok (state, rest)
    else
      match (keyed purpose item state).afterBlanks s h with
      | .error fault => .error fault
      | .ok (next, following) =>
        match moreMembers purpose item next following.chars (following.lt h) with
        | .error fault => .error fault
        | .ok (final, last) => .ok (final, following.after last)

end FieldSearch.Json

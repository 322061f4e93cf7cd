/-
# Percent-encoding of bytes

`escape` and `unescape` of Go's `net/url`, over bytes: which bytes each part of a
URL writes as `%XX`, and the way back.

`unescape_escape` is the round trip.  The rest is what splitting a URL at its
delimiters needs: an escaped text has no delimiter in it that its encoding
escapes, and `unescape` can be taken apart at a byte that cannot stand in an
escape, such as a slash.
-/

import Mathlib.Data.List.Basic
import Mathlib.Data.Option.Basic

namespace LynxRabbit
namespace Net

/-- A Go string. -/
abbrev Bytes := List UInt8

/-- The bytes of a text. -/
def bytes (s : String) : Bytes := s.toList.flatMap String.utf8EncodeChar

theorem bytes_eq_nil {s : String} (h : bytes s = []) : s = "" := by
  have hchar : ∀ c : Char, String.utf8EncodeChar c ≠ [] := by
    intro c
    simp only [String.utf8EncodeChar]
    split_ifs <;> exact List.cons_ne_nil _ _
  cases hs : s.toList with
  | nil => exact String.toList_eq_nil_iff.1 hs
  | cons c cs =>
      rw [bytes, hs, List.flatMap_cons] at h
      exact absurd (List.append_eq_nil_iff.1 h).1 (hchar c)

/-- A byte of ASCII is a character of the text. -/
theorem exists_of_mem_bytes {d : UInt8} (hd : d.toNat < 128) {s : String} (h : d ∈ bytes s) :
    ∃ c ∈ s.toList, c.toNat = d.toNat := by
  obtain ⟨c, hc, hm⟩ := List.mem_flatMap.1 h
  refine ⟨c, hc, ?_⟩
  -- the bytes of a longer character are above ASCII
  have hlong : ∀ n, 128 ≤ n → n < 256 → d ≠ UInt8.ofNat n := by
    rintro n h₁ h₂ rfl
    rw [UInt8.toNat_ofNat'] at hd
    omega
  simp only [String.utf8EncodeChar] at hm
  split_ifs at hm with h₁ h₂ h₃ <;>
    simp only [List.mem_cons, List.not_mem_nil, or_false] at hm
  · rw [hm, UInt8.toNat_ofNat']
    show c.val.toNat = _
    omega
  · rcases hm with h | h <;> exact absurd h (hlong _ (by omega) (by omega))
  · rcases hm with h | h | h <;> exact absurd h (hlong _ (by omega) (by omega))
  · rcases hm with h | h | h | h <;> exact absurd h (hlong _ (by omega) (by omega))

def slash : UInt8 := 0x2F
def percent : UInt8 := 0x25
def colon : UInt8 := 0x3A
def question : UInt8 := 0x3F
def hash : UInt8 := 0x23
def atSign : UInt8 := 0x40
def openBracket : UInt8 := 0x5B
def closeBracket : UInt8 := 0x5D

/-- The byte is one of the characters of `s`. -/
def oneOf (s : String) (c : UInt8) : Bool := (bytes s).contains c

def isLower (c : UInt8) : Bool := 0x61 ≤ c && c ≤ 0x7A
def isUpper (c : UInt8) : Bool := 0x41 ≤ c && c ≤ 0x5A
def isDigit (c : UInt8) : Bool := 0x30 ≤ c && c ≤ 0x39
def isLetter (c : UInt8) : Bool := isLower c || isUpper c

/-- The parts of a URL with an encoding of their own. -/
inductive Encoding
  | path
  | userPassword
  | host
  | fragment
deriving DecidableEq, Repr

/-- `shouldEscape`. -/
def shouldEscape (mode : Encoding) (c : UInt8) : Bool :=
  if isLetter c || isDigit c then false
  else if mode = .host ∧ oneOf "!$&'()*+,;=:[]<>\"" c then false
  else if oneOf "-_.~" c then false
  else if oneOf "$&+,/:;=?@" c then
    match mode with
    | .path => c == question
    | .userPassword => oneOf "@/?:" c
    | .fragment => false
    | .host => true
  else !(mode = .fragment ∧ oneOf "!()*" c)

/-- A digit of `upperhex`. -/
def hexDigit (n : ℕ) : UInt8 := if n < 10 then .ofNat (0x30 + n) else .ofNat (0x37 + n)

/-- `ishex` and `unhex`. -/
def unhex (c : UInt8) : Option ℕ :=
  if isDigit c then some (c.toNat - 0x30)
  else if 0x61 ≤ c && c ≤ 0x66 then some (c.toNat - 0x57)
  else if 0x41 ≤ c && c ≤ 0x46 then some (c.toNat - 0x37)
  else none

/-- A byte as `escape` writes it. -/
def escapeByte (mode : Encoding) (c : UInt8) : Bytes :=
  if shouldEscape mode c then [percent, hexDigit (c.toNat / 16), hexDigit (c.toNat % 16)] else [c]

/-- `escape`. -/
def escape (mode : Encoding) (s : Bytes) : Bytes := s.flatMap (escapeByte mode)

/-- `unescape`, where only a malformed escape is an error. -/
def unescape : Bytes → Option Bytes
  | [] => some []
  | c :: s =>
    if c = percent then
      match s with
      | a :: b :: s =>
        match unhex a, unhex b with
        | some x, some y => (unescape s).map (UInt8.ofNat (16 * x + y) :: ·)
        | _, _ => none
      | _ => none
    else (unescape s).map (c :: ·)

/-- `unescape` of a host: only `%` and bytes above ASCII may be escaped, and no byte of ASCII
may stand there that hosts escape. -/
def unescapeHost : Bytes → Option Bytes
  | [] => some []
  | c :: s =>
    if c = percent then
      match s with
      | a :: b :: s =>
        match unhex a, unhex b with
        | some x, some y =>
          if 8 ≤ x ∨ 16 * x + y = 0x25 then
            (unescapeHost s).map (UInt8.ofNat (16 * x + y) :: ·)
          else none
        | _, _ => none
      | _ => none
    else if c < 0x80 && shouldEscape .host c then none
    else (unescapeHost s).map (c :: ·)

/-! ### Round trip -/

theorem unhex_hexDigit {n : ℕ} (h : n < 16) : unhex (hexDigit n) = some n := by
  have hall : ∀ m < 16, unhex (hexDigit m) = some m := by decide
  exact hall n h

theorem unescape_literal {c : UInt8} (h : c ≠ percent) (s : Bytes) :
    unescape (c :: s) = (unescape s).map (c :: ·) := by
  rw [unescape.eq_def (c :: s)]
  exact if_neg h

theorem unescape_percent (a b : UInt8) (s : Bytes) :
    unescape (percent :: a :: b :: s) =
      match unhex a, unhex b with
      | some x, some y => (unescape s).map (UInt8.ofNat (16 * x + y) :: ·)
      | _, _ => none := by
  rw [unescape.eq_def (percent :: a :: b :: s)]
  rfl

/-- An escape cut short is an error. -/
theorem unescape_short (c : UInt8) : unescape [percent, c] = none := by
  rw [unescape.eq_def]
  rfl

theorem shouldEscape_percent (mode : Encoding) : shouldEscape mode percent = true := by
  cases mode <;> decide

theorem unescape_escapeByte (mode : Encoding) (c : UInt8) (s : Bytes) :
    unescape (escapeByte mode c ++ s) = (unescape s).map (c :: ·) := by
  unfold escapeByte
  split_ifs with he
  · have hlt : c.toNat < 256 := c.toNat_lt
    rw [List.cons_append, List.cons_append, List.cons_append, List.nil_append, unescape_percent,
      unhex_hexDigit (show c.toNat / 16 < 16 by omega),
      unhex_hexDigit (show c.toNat % 16 < 16 by omega)]
    simp only
    rw [show 16 * (c.toNat / 16) + c.toNat % 16 = c.toNat by omega, UInt8.ofNat_toNat]
  · refine unescape_literal (fun hc => ?_) s
    subst hc
    exact he (shouldEscape_percent mode)

/-- **What was escaped reads back as it was.** -/
theorem unescape_escape (mode : Encoding) : ∀ s : Bytes, unescape (escape mode s) = some s
  | [] => rfl
  | c :: s => by
      rw [escape, List.flatMap_cons, unescape_escapeByte]
      show (unescape (escape mode s)).map _ = _
      rw [unescape_escape mode s]
      rfl

/-! ### Delimiters -/

/-- A byte that is neither `%` nor a hexadecimal digit: it stands for itself
wherever it stands. -/
def Plain (c : UInt8) : Prop := c ≠ percent ∧ unhex c = none

instance (c : UInt8) : Decidable (Plain c) := inferInstanceAs (Decidable (_ ∧ _))

/-- A plain byte stands in an escape only for itself. -/
theorem mem_escapeByte {mode : Encoding} {c d : UInt8} (hp : Plain c)
    (hd : c ∈ escapeByte mode d) : c = d ∧ shouldEscape mode d = false := by
  unfold escapeByte at hd
  have hhex : ∀ n < 16, c ≠ hexDigit n := by
    intro n hn heq
    rw [heq] at hp
    rw [Plain, unhex_hexDigit hn] at hp
    cases hp.2
  split_ifs at hd with hesc
  · have hlt : d.toNat < 256 := d.toNat_lt
    rcases List.mem_cons.1 hd with rfl | hd
    · exact absurd rfl hp.1
    · rcases List.mem_cons.1 hd with h | hd
      · exact absurd h (hhex _ (by omega))
      · exact absurd (List.mem_singleton.1 hd) (hhex _ (by omega))
  · exact ⟨List.mem_singleton.1 hd, Bool.eq_false_iff.2 hesc⟩

/-- A delimiter that the encoding escapes does not occur in what it has escaped. -/
theorem notMem_escape {mode : Encoding} {c : UInt8} (hp : Plain c)
    (he : shouldEscape mode c = true) (s : Bytes) : c ∉ escape mode s := by
  intro hc
  obtain ⟨d, -, hd⟩ := List.mem_flatMap.1 hc
  obtain ⟨rfl, hesc⟩ := mem_escapeByte hp hd
  rw [he] at hesc
  cases hesc

theorem escape_nil_iff {mode : Encoding} {s : Bytes} : escape mode s = [] ↔ s = [] := by
  cases s with
  | nil => exact ⟨fun _ => rfl, fun _ => rfl⟩
  | cons c s =>
      have : escapeByte mode c ≠ [] := by
        unfold escapeByte
        split_ifs <;> exact List.cons_ne_nil _ _
      simp [escape, this]

/-- A byte the encoding leaves alone stands in front of the rest. -/
theorem escape_cons {mode : Encoding} {c : UInt8} (h : shouldEscape mode c = false) (s : Bytes) :
    escape mode (c :: s) = c :: escape mode s := by
  simp [escape, escapeByte, h]

/-- The first byte of an escaped text is the text's own, or `%`. -/
theorem head_escape {mode : Encoding} {c d : UInt8} {s t : Bytes}
    (h : escape mode (c :: s) = d :: t) : d = c ∨ d = percent := by
  simp only [escape, List.flatMap_cons, escapeByte] at h
  split_ifs at h
  · exact .inr (List.cons.inj h).1.symm
  · exact .inl (List.cons.inj h).1.symm

/-- **`unescape` splits at a plain byte.** -/
theorem unescape_split {c : UInt8} (hc : Plain c) : ∀ {x ys p : Bytes},
    unescape (x ++ c :: ys) = some p →
    ∃ p₁ p₂, unescape x = some p₁ ∧ unescape ys = some p₂ ∧ p = p₁ ++ c :: p₂
  | [], ys, p, h => by
      rw [List.nil_append, unescape_literal hc.1] at h
      obtain ⟨p₂, h₂, rfl⟩ := Option.map_eq_some_iff.1 h
      exact ⟨[], p₂, rfl, h₂, rfl⟩
  | [d], ys, p, h => by
      by_cases hd : d = percent
      · subst hd
        -- the escape would have to contain `c`
        cases ys with
        | nil => rw [List.cons_append, List.nil_append, unescape_short] at h; cases h
        | cons b ys =>
            rw [List.cons_append, List.nil_append, unescape_percent, hc.2] at h
            cases h
      · rw [List.cons_append, unescape_literal hd] at h
        obtain ⟨q, hq, rfl⟩ := Option.map_eq_some_iff.1 h
        obtain ⟨p₁, p₂, h₁, h₂, rfl⟩ := unescape_split hc (x := []) hq
        exact ⟨d :: p₁, p₂, by rw [unescape_literal hd, h₁]; rfl, h₂, rfl⟩
  | [d, a], ys, p, h => by
      by_cases hd : d = percent
      · subst hd
        rw [List.cons_append, List.cons_append, List.nil_append, unescape_percent, hc.2] at h
        split at h
        · rename_i hx
          cases hx
        · cases h
      · rw [List.cons_append, unescape_literal hd] at h
        obtain ⟨q, hq, rfl⟩ := Option.map_eq_some_iff.1 h
        obtain ⟨p₁, p₂, h₁, h₂, rfl⟩ := unescape_split hc (x := [a]) hq
        exact ⟨d :: p₁, p₂, by rw [unescape_literal hd, h₁]; rfl, h₂, rfl⟩
  | d :: a :: b :: xs, ys, p, h => by
      by_cases hd : d = percent
      · subst hd
        rw [List.cons_append, List.cons_append, List.cons_append, unescape_percent] at h
        split at h
        · rename_i x y hx hy
          obtain ⟨q, hq, rfl⟩ := Option.map_eq_some_iff.1 h
          obtain ⟨p₁, p₂, h₁, h₂, rfl⟩ := unescape_split hc hq
          refine ⟨UInt8.ofNat (16 * x + y) :: p₁, p₂, ?_, h₂, rfl⟩
          rw [unescape_percent, hx, hy, h₁]
          rfl
        · cases h
      · rw [List.cons_append, unescape_literal hd] at h
        obtain ⟨q, hq, rfl⟩ := Option.map_eq_some_iff.1 h
        obtain ⟨p₁, p₂, h₁, h₂, rfl⟩ := unescape_split hc (x := a :: b :: xs) hq
        exact ⟨d :: p₁, p₂, by rw [unescape_literal hd, h₁]; rfl, h₂, rfl⟩

theorem unescape_eq_nil {s : Bytes} (h : unescape s = some []) : s = [] := by
  cases s with
  | nil => rfl
  | cons c s =>
      rw [unescape.eq_def] at h
      simp only at h
      split at h
      · split at h
        · split at h
          · obtain ⟨_, _, h⟩ := Option.map_eq_some_iff.1 h
            cases h
          · cases h
        · cases h
      · obtain ⟨_, _, h⟩ := Option.map_eq_some_iff.1 h
        cases h

/-- A plain byte stays where it is read. -/
theorem mem_of_unescape {c : UInt8} (hc : Plain c) {s p : Bytes} (h : unescape s = some p)
    (hm : c ∈ s) : c ∈ p := by
  obtain ⟨xs, ys, rfl⟩ := List.append_of_mem hm
  obtain ⟨p₁, p₂, -, -, rfl⟩ := unescape_split hc h
  exact List.mem_append_right _ List.mem_cons_self

end Net
end LynxRabbit

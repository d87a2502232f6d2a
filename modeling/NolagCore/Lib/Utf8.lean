/-!
# Lib.Utf8

UTF-8 between text and buffers. Writing is Lean's own encoding of a character. Reading accepts any
bytes, as the encoding standard has it: the longest part that could have begun a character and does
not go on as one becomes U+FFFD. `decode_encode` reads back what was written.
-/

namespace NolagCore
namespace Lib
namespace Utf8

def encode (text : String) : List UInt8 := text.toList.flatMap String.utf8EncodeChar

/-- A character under way: the bytes it needs after the next one, where the next one has to lie, and
the bits read so far. -/
structure Pending where
  more : Nat
  lower : Nat
  upper : Nat
  bits : Nat

/-- `U+FFFD`. -/
def replacement : Char := '\uFFFD'

/-- A byte between characters: what it completes, and what it begins. The second byte of a longer
form is kept from spelling a shorter one, a surrogate or a code point that is too large. -/
def lead (b : Nat) : List Char × Option Pending :=
  if b ≤ 0x7F then ([Char.ofNat b], none)
  else if 0xC2 ≤ b ∧ b ≤ 0xDF then ([], some ⟨0, 0x80, 0xBF, b - 0xC0⟩)
  else if 0xE0 ≤ b ∧ b ≤ 0xEF then
    ([], some ⟨1, if b = 0xE0 then 0xA0 else 0x80, if b = 0xED then 0x9F else 0xBF, b - 0xE0⟩)
  else if 0xF0 ≤ b ∧ b ≤ 0xF4 then
    ([], some ⟨2, if b = 0xF0 then 0x90 else 0x80, if b = 0xF4 then 0x8F else 0xBF, b - 0xF0⟩)
  else ([replacement], none)

/-- A byte inside a character; one that does not belong there is read again as a first byte. -/
def resume (p : Pending) (b : Nat) : List Char × Option Pending :=
  if p.lower ≤ b ∧ b ≤ p.upper then
    match p.more with
    | 0 => ([Char.ofNat (p.bits * 64 + (b - 0x80))], none)
    | more + 1 => ([], some ⟨more, 0x80, 0xBF, p.bits * 64 + (b - 0x80)⟩)
  else (replacement :: (lead b).1, (lead b).2)

def decodeFrom : Option Pending → List UInt8 → List Char
  | none, [] => []
  | some _, [] => [replacement]
  | none, b :: rest => (lead b.toNat).1 ++ decodeFrom (lead b.toNat).2 rest
  | some p, b :: rest => (resume p b.toNat).1 ++ decodeFrom (resume p b.toNat).2 rest

def decode (bytes : List UInt8) : String := String.ofList (decodeFrom none bytes)

/-! ## First bytes -/

theorem lead_one {b : Nat} (h : b ≤ 0x7F) : lead b = ([Char.ofNat b], none) := if_pos h

theorem lead_two {x : Nat} (hx : 2 ≤ x) (hx' : x < 32) :
    lead (x + 0xC0) = ([], some ⟨0, 0x80, 0xBF, x⟩) := by
  unfold lead
  rw [if_neg (by omega), if_pos (by omega), Nat.add_sub_cancel]

theorem lead_three {x : Nat} (hx : x < 16) : lead (x + 0xE0) =
    ([], some ⟨1, if x = 0 then 0xA0 else 0x80, if x = 13 then 0x9F else 0xBF, x⟩) := by
  unfold lead
  rw [if_neg (by omega), if_neg (by omega), if_pos (by omega), Nat.add_sub_cancel]
  simp only [show x + 0xE0 = 0xE0 ↔ x = 0 by omega, show x + 0xE0 = 0xED ↔ x = 13 by omega]

theorem lead_four {x : Nat} (hx : x ≤ 4) : lead (x + 0xF0) =
    ([], some ⟨2, if x = 0 then 0x90 else 0x80, if x = 4 then 0x8F else 0xBF, x⟩) := by
  unfold lead
  rw [if_neg (by omega), if_neg (by omega), if_neg (by omega), if_pos (by omega),
    Nat.add_sub_cancel]
  simp only [show x + 0xF0 = 0xF0 ↔ x = 0 by omega, show x + 0xF0 = 0xF4 ↔ x = 4 by omega]

/-! ## Bytes that follow -/

theorem resume_last {lower upper bits x : Nat} (hlower : lower ≤ x + 0x80)
    (hupper : x + 0x80 ≤ upper) :
    resume ⟨0, lower, upper, bits⟩ (x + 0x80) = ([Char.ofNat (bits * 64 + x)], none) := by
  unfold resume
  rw [if_pos ⟨hlower, hupper⟩]
  simp

theorem resume_more {more lower upper bits x : Nat} (hlower : lower ≤ x + 0x80)
    (hupper : x + 0x80 ≤ upper) :
    resume ⟨more + 1, lower, upper, bits⟩ (x + 0x80) =
      ([], some ⟨more, 0x80, 0xBF, bits * 64 + x⟩) := by
  unfold resume
  rw [if_pos ⟨hlower, hupper⟩]
  simp

section

variable {b : Nat} {p : Pending} {out : List Char} {state : Option Pending} {rest : List UInt8}

theorem decodeFrom_lead (hb : b < 256) (h : lead b = (out, state)) :
    decodeFrom none (UInt8.ofNat b :: rest) = out ++ decodeFrom state rest := by
  simp only [decodeFrom]
  rw [UInt8.toNat_ofNat', Nat.mod_eq_of_lt hb, h]

theorem decodeFrom_resume (hb : b < 256) (h : resume p b = (out, state)) :
    decodeFrom (some p) (UInt8.ofNat b :: rest) = out ++ decodeFrom state rest := by
  simp only [decodeFrom]
  rw [UInt8.toNat_ofNat', Nat.mod_eq_of_lt hb, h]

end

/-! ## What was written -/

/-- The bytes of one character are read as that character. -/
theorem decodeFrom_encodeChar (c : Char) (rest : List UInt8) :
    decodeFrom none (String.utf8EncodeChar c ++ rest) = c :: decodeFrom none rest := by
  have hvalid : c.val.toNat < 0xD800 ∨ 0xDFFF < c.val.toNat ∧ c.val.toNat < 0x110000 := c.valid
  have hchar : ∀ n, n = c.val.toNat → Char.ofNat n = c := by
    rintro n rfl
    exact Char.ofNat_toNat c
  unfold String.utf8EncodeChar
  dsimp only
  generalize c.val.toNat = v at hvalid hchar
  split
  · rename_i hone
    exact (decodeFrom_lead (by omega) (lead_one hone)).trans (by rw [hchar v rfl]; rfl)
  split
  · have hlead := lead_two (x := v / 64 % 32) (by omega) (by omega)
    have hlast : resume ⟨0, 0x80, 0xBF, v / 64 % 32⟩ (v % 64 + 0x80) =
        ([Char.ofNat (v / 64 % 32 * 64 + v % 64)], none) := resume_last (by omega) (by omega)
    simp only [List.cons_append, List.nil_append]
    rw [decodeFrom_lead (by omega) hlead, List.nil_append, decodeFrom_resume (by omega) hlast,
      hchar _ (by omega)]
    rfl
  split
  · have hlead := lead_three (x := v / 4096 % 16) (by omega)
    have hlast : resume ⟨0, 0x80, 0xBF, v / 4096 % 16 * 64 + v / 64 % 64⟩ (v % 64 + 0x80) =
        ([Char.ofNat ((v / 4096 % 16 * 64 + v / 64 % 64) * 64 + v % 64)], none) :=
      resume_last (by omega) (by omega)
    simp only [List.cons_append, List.nil_append]
    rw [decodeFrom_lead (by omega) hlead, List.nil_append,
      decodeFrom_resume (by omega) (resume_more (by split <;> omega) (by split <;> omega)),
      List.nil_append, decodeFrom_resume (by omega) hlast, hchar _ (by omega)]
    rfl
  · have hlead := lead_four (x := v / 262144 % 8) (by omega)
    have hmore : resume ⟨1, 0x80, 0xBF, v / 262144 % 8 * 64 + v / 4096 % 64⟩
        (v / 64 % 64 + 0x80) = ([], some ⟨0, 0x80, 0xBF,
          (v / 262144 % 8 * 64 + v / 4096 % 64) * 64 + v / 64 % 64⟩) :=
      resume_more (by omega) (by omega)
    have hlast : resume ⟨0, 0x80, 0xBF, (v / 262144 % 8 * 64 + v / 4096 % 64) * 64 + v / 64 % 64⟩
        (v % 64 + 0x80) = ([Char.ofNat
          (((v / 262144 % 8 * 64 + v / 4096 % 64) * 64 + v / 64 % 64) * 64 + v % 64)], none) :=
      resume_last (by omega) (by omega)
    simp only [List.cons_append, List.nil_append]
    rw [decodeFrom_lead (by omega) hlead, List.nil_append,
      decodeFrom_resume (by omega) (resume_more (by split <;> omega) (by split <;> omega)),
      List.nil_append, decodeFrom_resume (by omega) hmore, List.nil_append,
      decodeFrom_resume (by omega) hlast, hchar _ (by omega)]
    rfl

theorem decode_encode (text : String) : decode (encode text) = text := by
  have hchars : ∀ chars : List Char,
      decodeFrom none (chars.flatMap String.utf8EncodeChar) = chars := by
    intro chars
    induction chars with
    | nil => rfl
    | cons c chars ih => rw [List.flatMap_cons, decodeFrom_encodeChar, ih]
  unfold decode encode
  rw [hchars, String.ofList_toList]

end Utf8
end Lib
end NolagCore

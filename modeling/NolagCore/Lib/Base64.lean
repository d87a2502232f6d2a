/-!
# Lib.Base64

Bytes as digits of six bits. The alphabet and the padding character are parameters; decoding reads
the digits up to the padding, skips whatever is no digit and drops a last digit that is no whole
byte. `decode_encode` holds with and without padding, for every length modulo three.
-/

namespace NolagCore
namespace Lib
namespace Base64

/-- The bits of a buffer in sixes, the last six filled up with zeros. -/
def sextets : List UInt8 → List Nat
  | a :: b :: c :: rest =>
    let n := a.toNat * 65536 + b.toNat * 256 + c.toNat
    n / 262144 % 64 :: n / 4096 % 64 :: n / 64 % 64 :: n % 64 :: sextets rest
  | [a, b] =>
    let n := a.toNat * 1024 + b.toNat * 4
    [n / 4096 % 64, n / 64 % 64, n % 64]
  | [a] => [a.toNat / 4 % 64, a.toNat * 16 % 64]
  | [] => []

/-- The whole bytes that sixes of bits spell. -/
def octets : List Nat → List UInt8
  | a :: b :: c :: d :: rest =>
    let n := a * 262144 + b * 4096 + c * 64 + d
    UInt8.ofNat (n / 65536) :: UInt8.ofNat (n / 256) :: UInt8.ofNat n :: octets rest
  | [a, b, c] =>
    let n := a * 4096 + b * 64 + c
    [UInt8.ofNat (n / 1024), UInt8.ofNat (n / 4)]
  | [a, b] => [UInt8.ofNat ((a * 64 + b) / 16)]
  | _ => []

variable {α : Type}

def encode (digit : Nat → α) (bytes : List UInt8) : List α := (sextets bytes).map digit

def decode [DecidableEq α] (value : α → Option Nat) (pad : α) (text : List α) : List UInt8 :=
  octets ((text.takeWhile fun c => decide (c ≠ pad)).filterMap value)

theorem ofNat_of_mod {n : Nat} {a : UInt8} (h : n % 256 = a.toNat) : UInt8.ofNat n = a := by
  apply UInt8.toNat_inj.1
  rw [UInt8.toNat_ofNat']
  exact h

theorem octets_sextets (bytes : List UInt8) : octets (sextets bytes) = bytes := by
  fun_induction sextets bytes with
  | case1 a b c rest n ih =>
    have ha := a.toNat_lt
    have hb := b.toNat_lt
    have hc := c.toNat_lt
    have hn : n = a.toNat * 65536 + b.toNat * 256 + c.toNat := rfl
    simp only [octets, ih]
    rw [ofNat_of_mod (a := a) (by omega), ofNat_of_mod (a := b) (by omega),
      ofNat_of_mod (a := c) (by omega)]
  | case2 a b n =>
    have ha := a.toNat_lt
    have hb := b.toNat_lt
    have hn : n = a.toNat * 1024 + b.toNat * 4 := rfl
    simp only [octets]
    rw [ofNat_of_mod (a := a) (by omega), ofNat_of_mod (a := b) (by omega)]
  | case3 a =>
    have ha := a.toNat_lt
    simp only [octets]
    rw [ofNat_of_mod (a := a) (by omega)]
  | case4 => rfl

theorem sextet_lt {bytes : List UInt8} {n : Nat} (h : n ∈ sextets bytes) : n < 64 := by
  fun_induction sextets bytes with
  | case1 a b c rest m ih =>
    simp only [List.mem_cons] at h
    rcases h with rfl | rfl | rfl | rfl | h
    · omega
    · omega
    · omega
    · omega
    · exact ih h
  | case2 a b m =>
    simp only [List.mem_cons, List.not_mem_nil, or_false] at h
    omega
  | case3 a =>
    simp only [List.mem_cons, List.not_mem_nil, or_false] at h
    omega
  | case4 => cases h

section

variable {digit : Nat → α} {value : α → Option Nat} {pad : α}

theorem pad_notMem_encode (hpad : ∀ n < 64, digit n ≠ pad) (bytes : List UInt8) :
    pad ∉ encode digit bytes := by
  intro h
  obtain ⟨n, hn, hd⟩ := List.mem_map.1 h
  exact hpad n (sextet_lt hn) hd

theorem filterMap_encode (hvalue : ∀ n < 64, value (digit n) = some n) (bytes : List UInt8) :
    (encode digit bytes).filterMap value = sextets bytes := by
  have hlt : ∀ n ∈ sextets bytes, n < 64 := fun n hn => sextet_lt hn
  unfold encode
  generalize sextets bytes = digits at hlt
  induction digits with
  | nil => rfl
  | cons n digits ih =>
    have hn := hvalue n (hlt n List.mem_cons_self)
    have hrest := ih fun m hm => hlt m (List.mem_cons_of_mem n hm)
    simp [hn, hrest]

/-- A text of digits, padded or not, decodes to the bytes it was made from. -/
theorem decode_encode [DecidableEq α] (hvalue : ∀ n < 64, value (digit n) = some n)
    (hpad : ∀ n < 64, digit n ≠ pad) (bytes : List UInt8) (k : Nat) :
    decode value pad (encode digit bytes ++ List.replicate k pad) = bytes := by
  have hdigits : (encode digit bytes ++ List.replicate k pad).takeWhile
      (fun c => decide (c ≠ pad)) = encode digit bytes := by
    rw [List.takeWhile_append_of_pos]
    · cases k <;> simp [List.replicate_succ]
    · intro c hc
      apply decide_eq_true
      rintro rfl
      exact pad_notMem_encode hpad bytes hc
  unfold decode
  rw [hdigits, filterMap_encode hvalue, octets_sextets]

end

end Base64
end Lib
end NolagCore

import Mathlib.Tactic.Ring
import Questline.GameId

/-! # Texts of game ids read back

* `Hex.continueDigits?_digits`: digits that are written are read as what they stand for.
* `GameId.ofText?_text`: an id is read back from its text. -/

namespace Questline

namespace Hex

theorem value?_digit {n : Nat} (h : n < 16) : value? (digit n) = some n := by
  revert n
  decide

@[simp] theorem length_digits (count n : Nat) : (digits count n).length = count := by
  induction count generalizing n with
  | zero => rfl
  | succ count ih => rw [digits, List.length_append, ih, List.length_singleton]

/-- The digits of a number are read as its lowest digits, whatever stands in front of them. -/
theorem continueDigits?_digits (front count n : Nat) (rest : List Char) :
    continueDigits? front (digits count n ++ rest) =
      continueDigits? (front * Nat.pow 16 count + n % Nat.pow 16 count) rest := by
  induction count generalizing n rest with
  | zero => simp [digits, Nat.mod_one]
  | succ count ih =>
    have hvalue : value? (digit (n % 16)) = some (n % 16) := value?_digit (Nat.mod_lt n (by decide))
    have hpow : Nat.pow 16 (count + 1) = 16 * Nat.pow 16 count := Nat.mul_comm _ _
    have hsplit : n % (16 * Nat.pow 16 count) = n % 16 + 16 * (n / 16 % Nat.pow 16 count) :=
      Nat.mod_mul
    have hword : 16 * (front * Nat.pow 16 count + n / 16 % Nat.pow 16 count) + n % 16 =
        front * Nat.pow 16 (count + 1) + n % Nat.pow 16 (count + 1) := by
      rw [hpow, hsplit]
      ring
    rw [digits, List.append_assoc, ih, List.singleton_append, continueDigits?, hvalue,
      Option.bind_some, hword]

end Hex

namespace GameId

/-- Nothing stands around a text that starts with a digit. -/
theorem unwrap_digit_cons {n : Nat} (h : n < 16) (rest : List Char) :
    unwrap (Hex.digit n :: rest) = Hex.digit n :: rest := by
  have hlower : ∀ n < 16, (Hex.digit n).toLower ≠ 'u' := by decide
  have hbrace : ∀ n < 16, Hex.digit n ≠ '\x7b' := by decide
  unfold unwrap
  have hurn : ((Hex.digit n :: rest).take 9).map Char.toLower ≠ urn := by
    intro heq
    exact hlower n h (List.cons.inj heq).1
  rw [if_neg hurn]
  split
  · rename_i heq
    exact absurd (List.cons.inj heq).1 (hbrace n h)
  · rfl

theorem ofGroups?_append {a b c d e : List Char} (ha : a.length = 8) (hb : b.length = 4)
    (hc : c.length = 4) (hd : d.length = 4) (he : e.length = 12) :
    ofGroups? (a ++ '-' :: b ++ '-' :: c ++ '-' :: d ++ '-' :: e) =
      ofDigits? (a ++ b ++ c ++ d ++ e) := by
  have hdrop : ∀ (front : List Char) (k : Nat), front.length ≤ k → front.drop k = [] :=
    fun front k => List.drop_eq_nil_of_le
  simp only [List.append_assoc, List.cons_append]
  unfold ofGroups?
  simp [List.drop_append, ha, hb, hc, hd, he, hdrop]

/-- The digits of all groups together are those of the id. -/
theorem ofDigits?_groups {n : Nat} (h : n < 0x100000000000000000000000000000000) :
    Hex.ofDigits? (Hex.digits 8 (n >>> 96) ++ Hex.digits 4 (n >>> 80) ++ Hex.digits 4 (n >>> 64) ++
      Hex.digits 4 (n >>> 48) ++ Hex.digits 12 n) = some n := by
  have hlast : ∀ front, Hex.continueDigits? front (Hex.digits 12 n) =
      some (front * Nat.pow 16 12 + n % Nat.pow 16 12) := by
    intro front
    rw [← List.append_nil (Hex.digits 12 n), Hex.continueDigits?_digits, Hex.continueDigits?]
  have hpow : Nat.pow 16 4 = 0x10000 ∧ Nat.pow 16 8 = 0x100000000 ∧
      Nat.pow 16 12 = 0x1000000000000 := by decide
  simp only [Hex.ofDigits?, List.append_assoc, Hex.continueDigits?_digits, hlast, hpow,
    Nat.shiftRight_eq_div_pow, Option.some.injEq]
  omega

/-- **An id is read back from its text.** -/
theorem ofText?_text (id : GameId) : ofText? id.text = some id := by
  have hlength : id.chars.length = 36 := by simp [chars]
  have hunwrap : unwrap id.chars = id.chars :=
    unwrap_digit_cons (Nat.mod_lt _ (by decide)) _
  have hgroups := ofDigits?_groups id.value.isLt
  rw [ofText?, text, String.toList_ofList, hlength, if_neg (by decide), hunwrap, chars,
    ofGroups?_append (by simp) (by simp) (by simp) (by simp) (by simp), ofDigits?,
    if_pos (by simp), hgroups, Option.map_some, BitVec.ofNat_toNat, BitVec.setWidth_eq]

end GameId

end Questline

import Mathlib.Algebra.BigOperators.Fin
import Mathlib.Data.Nat.ModEq
import Mathlib.Tactic.Ring
import Questline.Proofs.GameId
import Questline.Quest.Fingerprint

/-! # Fingerprints tell small edits apart

The hash of a text is the number whose digits in base 31 are its characters, in a word of 32 bits. A
step of the hash can be undone, since 31 is odd, so what follows a difference never hides it. Two
characters that differ make a difference, and so do two neighbours that are swapped: characters are
too small for 30 of them to wrap around. So a small edit of the text of a quest changes its
fingerprint, however long the text is.

* `Draw.polynomial`: the number in base 31. `Draw.toNat_hash`: the hash is its lowest 32 bits.
  `Draw.toUInt32_signedHash`: words with a sign hold the same bits.
* `Draw.toNat_hash_append`: the hash of two texts one after the other.
* `SmallEdit`: one character substituted or two neighbours swapped. `Draw.hash_ne_of_smallEdit`: the
  hash changes.
* `Quest.fingerprint_eq_iff`: equal fingerprints are equal hashes.
  `Quest.fingerprints_of_edits`: the hash, and what it tells of two quests. -/

namespace Questline

namespace Draw

/-! ### The hash as a number -/

/-- **The number whose digits in base 31 are the characters,** the last one counting once. -/
def polynomial (cs : List Char) : ℕ :=
  ∑ i : Fin cs.length, cs[i].toNat * 31 ^ (cs.length - 1 - i)

theorem polynomial_cons (c : Char) (rest : List Char) :
    polynomial (c :: rest) = c.toNat * 31 ^ rest.length + polynomial rest := by
  have hsum : polynomial (c :: rest) = c.toNat * 31 ^ ((c :: rest).length - 1 - 0) +
      ∑ i : Fin rest.length, rest[i].toNat * 31 ^ ((c :: rest).length - 1 - (i + 1)) :=
    Fin.sum_univ_succ _
  rw [hsum, polynomial, List.length_cons]
  refine congrArg _ (Fintype.sum_congr _ _ fun i => ?_)
  have hplace : rest.length + 1 - 1 - (i.val + 1) = rest.length - 1 - i.val := by omega
  rw [hplace]

/-- The characters that continue a hash move it up and add their number. -/
theorem toNat_hashChars (h : UInt32) (cs : List Char) :
    (hashChars h cs).toNat = (h.toNat * 31 ^ cs.length + polynomial cs) % 2 ^ 32 := by
  induction cs generalizing h with
  | nil =>
    simp [hashChars, polynomial]
  | cons c rest ih =>
    have hstep : (h * 31 + c.val).toNat ≡ h.toNat * 31 + c.toNat [MOD 2 ^ 32] := by
      rw [UInt32.toNat_add, UInt32.toNat_mul]
      exact (Nat.mod_modEq _ _).trans ((Nat.mod_modEq _ _).add_right _)
    calc (hashChars h (c :: rest)).toNat
      _ = ((h * 31 + c.val).toNat * 31 ^ rest.length + polynomial rest) % 2 ^ 32 := ih _
      _ = ((h.toNat * 31 + c.toNat) * 31 ^ rest.length + polynomial rest) % 2 ^ 32 :=
        (hstep.mul_right _).add_right _
      _ = (h.toNat * 31 ^ (c :: rest).length + polynomial (c :: rest)) % 2 ^ 32 := by
        rw [polynomial_cons, List.length_cons]
        congr 1
        ring

/-- **The hash of a text is its number in base 31,** as a word of 32 bits. -/
theorem toNat_hash (text : String) : (hash text).toNat = polynomial text.toList % 2 ^ 32 := by
  rw [hash, toNat_hashChars, UInt32.toNat_zero, Nat.zero_mul, Nat.zero_add]

/-- **The hash of two texts,** one after the other. -/
theorem toNat_hash_append (a b : String) :
    (hash (a ++ b)).toNat = ((hash a).toNat * 31 ^ b.length + (hash b).toNat) % 2 ^ 32 := by
  have hparts : hash (a ++ b) = hashChars (hash a) b.toList := by
    rw [hash, hash, hashChars, String.toList_append, List.foldl_append]
    rfl
  rw [hparts, toNat_hashChars, toNat_hash b, Nat.add_mod_mod, String.length_toList]

/-- The rolling hash of characters that continue a hash, in words of 32 bits with a sign. -/
def signedHashChars (h : Int32) (cs : List Char) : Int32 :=
  cs.foldl (fun h c => h * 31 + c.val.toInt32) h

/-- **The rolling hash in words with a sign.** -/
def signedHash (text : String) : Int32 := signedHashChars 0 text.toList

theorem toUInt32_signedHashChars (h : Int32) (cs : List Char) :
    (signedHashChars h cs).toUInt32 = hashChars h.toUInt32 cs := by
  induction cs generalizing h with
  | nil => rfl
  | cons c rest ih =>
    have hstep : (h * 31 + c.val.toInt32).toUInt32 = h.toUInt32 * 31 + c.val := by
      rw [Int32.toUInt32_add, Int32.toUInt32_mul, UInt32.toUInt32_toInt32]
      rfl
    rw [signedHashChars, List.foldl_cons, ← signedHashChars, ih, hstep]
    rfl

/-- **Words with a sign hold the same bits.** -/
theorem toUInt32_signedHash (text : String) : (signedHash text).toUInt32 = hash text :=
  toUInt32_signedHashChars 0 text.toList

/-! ### Steps -/

/-- **A step of the hash can be undone:** 31 is odd and has an inverse. -/
theorem hash_step_injective {h h' c : UInt32} (heq : h * 31 + c = h' * 31 + c) : h = h' := by
  have hinverse : (31 : UInt32) * 0xBDEF7BDF = 1 := rfl
  have hmul : h * 31 = h' * 31 := (UInt32.add_left_inj c).mp heq
  calc h = h * 31 * 0xBDEF7BDF := by rw [UInt32.mul_assoc, hinverse, UInt32.mul_one]
    _ = h' * 31 * 0xBDEF7BDF := by rw [hmul]
    _ = h' := by rw [UInt32.mul_assoc, hinverse, UInt32.mul_one]

/-- What follows a difference never hides it. -/
theorem hashChars_injective (cs : List Char) : Function.Injective (hashChars · cs) := by
  induction cs with
  | nil => exact fun _ _ heq => heq
  | cons c rest ih => exact fun _ _ heq => hash_step_injective (ih heq)

theorem hashChars_append (h : UInt32) (front back : List Char) :
    hashChars h (front ++ back) = hashChars (hashChars h front) back := List.foldl_append

/-- Characters are small: 30 of them do not wrap around. -/
theorem eq_of_mul_thirty_eq {c d : Char} (heq : c.val * 30 = d.val * 30) : c = d := by
  have hsmall : ∀ c : Char, c.val.toNat < 0x110000 := by
    intro c
    rcases c.valid with h | h
    · exact h.trans (by decide)
    · exact h.2
  have hthirty : ∀ c : Char, (c.val * 30).toNat = c.val.toNat * 30 := by
    intro c
    have hlt : c.val.toNat * 30 < 2 ^ 32 :=
      (Nat.mul_lt_mul_of_pos_right (hsmall c) (by decide)).trans (by decide)
    rw [UInt32.toNat_mul]
    exact Nat.mod_eq_of_lt hlt
  have hwords : c.val.toNat * 30 = d.val.toNat * 30 := by rw [← hthirty, ← hthirty, heq]
  exact Char.val_inj.mp (UInt32.toNat_inj.mp (Nat.eq_of_mul_eq_mul_right (by decide) hwords))

end Draw

/-! ### Small edits -/

/-- **A small edit** of a list of characters: one of them is substituted, or two neighbours that
differ are swapped. -/
inductive SmallEdit : List Char → List Char → Prop
  | substitute (front back : List Char) {c d : Char} (h : c ≠ d) :
      SmallEdit (front ++ c :: back) (front ++ d :: back)
  | swap (front back : List Char) {c d : Char} (h : c ≠ d) :
      SmallEdit (front ++ c :: d :: back) (front ++ d :: c :: back)

namespace Draw

theorem hashChars_ne_of_smallEdit {cs ds : List Char} (hedit : SmallEdit cs ds) (h : UInt32) :
    hashChars h cs ≠ hashChars h ds := by
  intro heq
  cases hedit with
  | @substitute front back c d hne =>
    rw [hashChars_append, hashChars_append] at heq
    generalize hashChars h front = start at heq
    have hstep : start * 31 + c.val = start * 31 + d.val := hashChars_injective back heq
    exact hne (Char.val_inj.mp ((UInt32.add_right_inj _).mp hstep))
  | @swap front back c d hne =>
    rw [hashChars_append, hashChars_append] at heq
    generalize hashChars h front = start at heq
    have hsteps : (start * 31 + c.val) * 31 + d.val = (start * 31 + d.val) * 31 + c.val :=
      hashChars_injective back heq
    exact hne (eq_of_mul_thirty_eq (by grind))

/-- **A small edit changes the hash.** -/
theorem hash_ne_of_smallEdit {a b : String} (hedit : SmallEdit a.toList b.toList) :
    hash a ≠ hash b := hashChars_ne_of_smallEdit hedit 0

end Draw

/-! ### Fingerprints -/

/-- Digits tell numbers apart that are not too large for them. -/
theorem Hex.eq_of_digits_eq {count m n : ℕ} (hm : m < Nat.pow 16 count) (hn : n < Nat.pow 16 count)
    (heq : digits count m = digits count n) : m = n := by
  have hread : ∀ k < Nat.pow 16 count, continueDigits? 0 (digits count k) = some k := by
    intro k hk
    have hdigits := continueDigits?_digits 0 count k []
    rwa [List.append_nil, Nat.zero_mul, Nat.zero_add, Nat.mod_eq_of_lt hk] at hdigits
  have hsame := hread m hm
  rw [heq, hread n hn] at hsame
  exact (Option.some.inj hsame).symm

namespace Quest

/-- **Equal fingerprints are equal hashes.** -/
theorem fingerprint_eq_iff {q q' : Quest} :
    q.fingerprint = q'.fingerprint ↔ Draw.hash q.canonicalText = Draw.hash q'.canonicalText := by
  have hlt : ∀ h : UInt32, h.toNat < Nat.pow 16 8 := fun h => h.toNat_lt
  constructor
  · intro heq
    exact UInt32.toNat_inj.mp (Hex.eq_of_digits_eq (hlt _) (hlt _) (String.ofList_injective heq))
  · intro heq
    rw [fingerprint, fingerprint, heq]

/-- **The hash, and what it tells of two quests.** The hash of a text is its number in base 31, as a
word of 32 bits, and the hash in words with a sign holds the same bits. Two texts, one after the
other, have the hash of the first, moved up by the length of the second, and that of the second. Two
quests whose canonical texts are a small edit apart have different fingerprints. -/
theorem fingerprints_of_edits :
    (∀ text, (Draw.hash text).toNat = Draw.polynomial text.toList % 2 ^ 32 ∧
      (Draw.signedHash text).toUInt32 = Draw.hash text) ∧
    (∀ a b : String, (Draw.hash (a ++ b)).toNat =
      ((Draw.hash a).toNat * 31 ^ b.length + (Draw.hash b).toNat) % 2 ^ 32) ∧
    ∀ q q' : Quest, SmallEdit q.canonicalText.toList q'.canonicalText.toList →
      q.fingerprint ≠ q'.fingerprint := by
  refine ⟨fun text => ⟨Draw.toNat_hash text, Draw.toUInt32_signedHash text⟩,
    Draw.toNat_hash_append, ?_⟩
  intro q q' hedit heq
  exact Draw.hash_ne_of_smallEdit hedit (fingerprint_eq_iff.mp heq)

/-- A slip of the pen turns a trail into a trial, another one into a train. -/
theorem fingerprints_of_trail :
    let trail := bare "trail" "ferry"
    let trial := bare "trial" "ferry"
    let train := bare "train" "ferry"
    (SmallEdit trail.canonicalText.toList trial.canonicalText.toList ∧
      SmallEdit trail.canonicalText.toList train.canonicalText.toList) ∧
    trail.fingerprint ≠ trial.fingerprint ∧ trail.fingerprint ≠ train.fingerprint := by
  intro trail trial train
  let front := "\x7b\"edges\":[],\"graphId\":\"tr".toList
  let back := "\",\"nodes\":[],\"start\":\"ferry\"\x7d".toList
  have htrail : trail.canonicalText.toList = front ++ 'a' :: 'i' :: 'l' :: back := by decide
  have htrial : trial.canonicalText.toList = front ++ 'i' :: 'a' :: 'l' :: back := by decide
  have htrain : train.canonicalText.toList = front ++ 'a' :: 'i' :: 'n' :: back := by decide
  have hswap : SmallEdit trail.canonicalText.toList trial.canonicalText.toList := by
    rw [htrail, htrial]
    exact .swap front ('l' :: back) (by decide)
  have hsubstitute : SmallEdit trail.canonicalText.toList train.canonicalText.toList := by
    have hsplit : ∀ c, front ++ 'a' :: 'i' :: c :: back = (front ++ ['a', 'i']) ++ c :: back :=
      fun c => (List.append_assoc front ['a', 'i'] (c :: back)).symm
    rw [htrail, htrain, hsplit, hsplit]
    exact .substitute (front ++ ['a', 'i']) back (by decide)
  obtain ⟨-, -, hdiffer⟩ := fingerprints_of_edits
  exact ⟨⟨hswap, hsubstitute⟩, hdiffer trail trial hswap, hdiffer trail train hsubstitute⟩

end Quest

end Questline

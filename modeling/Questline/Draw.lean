import Questline.Binary64.Arithmetic

/-! # Repeatable draws

Choices that look random and can be repeated: a key is hashed, the hash becomes a number from zero
to below one, and that number picks a place in a list.

* `Draw.hash`: the rolling hash of a text, each character added to 31 times what came before, in
  words of 32 bits.
* `Draw.seed`: the hash as a fraction of `2^32`.
* `Draw.index`: the place that a seed picks among so many. -/

namespace Questline

namespace Draw

/-- The rolling hash of characters that continue a hash. -/
def hashChars (h : UInt32) (cs : List Char) : UInt32 := cs.foldl (fun h c => h * 31 + c.val) h

/-- **The rolling hash of a text.** -/
def hash (text : String) : UInt32 := hashChars 0 text.toList

/-- The hash as a fraction of `2^32`. -/
def seed (key : String) : Binary64 :=
  (Binary64.ofNat (hash key).toNat).div (Binary64.ofNat 0x100000000)

/-- **The place that a seed picks** among `count`, zero when there are none. -/
def index (seed : Binary64) (count : Nat) : Nat :=
  if count = 0 then 0 else min (seed.mul (Binary64.ofNat count)).toIndex (count - 1)

/-- The place that a key picks among `count`. -/
def pick (key : String) (count : Nat) : Nat := index (seed key) count

theorem index_lt (seed : Binary64) {count : Nat} (h : 0 < count) : index seed count < count := by
  unfold index
  rw [if_neg (Nat.ne_of_gt h)]
  exact Nat.lt_of_le_of_lt (Nat.min_le_right _ _) (by omega)

/-- The member of a list that a key picks, none when the list is empty. -/
def choose {α : Type} (key : String) (items : List α) : Option α := items[pick key items.length]?

end Draw

end Questline

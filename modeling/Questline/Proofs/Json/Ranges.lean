import Questline.Json.Parser
import Questline.Proofs.Decimal.Finite
import Questline.Proofs.Json.Leaves

/-! # Numbers of documents

The integers of a text are words of 64 bits, and its other numbers are finite: a numeral beyond the
largest number stands for nothing. The reader only puts together what the tokens stand for, so this
holds of all numbers inside a value that was read.

* `Json.InRange`: all numbers inside a value are words or finite.
* `Json.inRange_ofNumeral`: it holds of the value of a numeral.
* `Json.inRange_of_ofText?`, `Json.inRange_of_ofDocument?`: it holds of what is read from texts. -/

namespace Questline

/-- The integer of a numeral is a word. -/
theorem Numeral.word_of_toWord? {n : Numeral} {i : Int} (h : n.toWord? = some i) :
    -0x8000000000000000 ≤ i ∧ i < 0x10000000000000000 := by
  unfold toWord? at h
  split at h
  · split_ifs at h with hnegative hbound hbound
    · obtain rfl := Option.some.inj h
      omega
    · obtain rfl := Option.some.inj h
      unfold maxWord at hbound
      omega
  · cases h

namespace Json

/-- A leaf that is a word, a finite number, or no number. -/
def LeafInRange : Json → Prop
  | .int i => -0x8000000000000000 ≤ i ∧ i < 0x10000000000000000
  | .float x => x.isFinite = true
  | _ => True

/-- **All numbers inside a value are words or finite.** -/
def InRange (j : Json) : Prop := ∀ l ∈ j.leaves, l.LeafInRange

variable {j : Json}

theorem inRange_leaf (hleaf : j.leaves = [j]) (h : j.LeafInRange) : j.InRange := by
  intro l hl
  rw [hleaf, List.mem_singleton] at hl
  exact hl ▸ h

theorem inRange_arr {items : List Json} : InRange (.arr items) ↔ ∀ j ∈ items, InRange j :=
  forall_mem_leaves_arr

theorem inRange_obj {fields : List (String × Json)} :
    InRange (.obj fields) ↔ ∀ e ∈ fields, InRange e.2 :=
  forall_mem_leaves_obj

theorem InRange.of_mem_children {v : Json} (h : j.InRange) (hv : v ∈ j.children) : v.InRange :=
  fun l hl => h l (leaves_subset_of_mem_children hv hl)

theorem inRange_ofNumeral (n : Numeral) : InRange (ofNumeral n) := by
  unfold ofNumeral
  split
  · rename_i i hword
    exact inRange_leaf rfl (Numeral.word_of_toWord? hword)
  · split
    · rename_i x hnumber
      exact inRange_leaf rfl (Numeral.isFinite_of_toBinary64? hnumber)
    · exact inRange_leaf rfl trivial

theorem inRange_trimDepth (limit : Nat) (h : j.InRange) : (j.trimDepth limit).InRange := by
  intro l hl
  rcases leaves_trimDepth limit hl with hl | rfl
  · exact h l hl
  · trivial

/-! ### The reader -/

/-- What an open array or object holds so far is in range. -/
def Frame.InRange : Frame → Prop
  | .arr done => ∀ j ∈ done, j.InRange
  | .obj done _ _ => ∀ e ∈ done, Json.InRange e.2

theorem Frame.inRange_arr_cons {done : List Json} (hj : j.InRange)
    (h : (Frame.arr done).InRange) : (Frame.arr (j :: done)).InRange :=
  List.forall_mem_cons.mpr ⟨hj, h⟩

theorem Frame.inRange_obj_cons {done : List (String × Json)} {key next : String}
    {ok nextOk : Bool} (hj : j.InRange) (h : (Frame.obj done key ok).InRange) :
    (Frame.obj ((key, j) :: done) next nextOk).InRange :=
  List.forall_mem_cons.mpr ⟨hj, h⟩

theorem inRange_closeObject {fields : List (String × Json)} (h : ∀ e ∈ fields, Json.InRange e.2)
    (keysReadable : Bool) : InRange (closeObject fields keysReadable) := by
  unfold closeObject
  split_ifs
  · exact inRange_obj.mpr fun e he => h e (List.mem_reverse.mp he)
  · exact inRange_leaf rfl trivial

mutual

/-- A value that is read on top of open frames is in range when they are. -/
theorem inRange_of_readValue (tokens : List Token) {stack : List Frame} {v : Json}
    (hstack : ∀ f ∈ stack, f.InRange) (h : readValue stack tokens = some v) : v.InRange := by
  unfold readValue at h
  split at h
  -- a leaf, an empty array or object, or a new frame that holds nothing yet
  · refine inRange_of_readAfter _ hstack ?_ h
    exact inRange_leaf rfl trivial
  · refine inRange_of_readAfter _ hstack ?_ h
    exact inRange_leaf rfl trivial
  · exact inRange_of_readAfter _ hstack (inRange_ofNumeral _) h
  · refine inRange_of_readAfter _ hstack ?_ h
    exact inRange_leaf rfl trivial
  · refine inRange_of_readAfter _ hstack ?_ h
    exact inRange_leaf rfl trivial
  · exact inRange_of_readAfter _ hstack (inRange_arr.mpr (by simp)) h
  · exact inRange_of_readValue _ (List.forall_mem_cons.mpr ⟨by simp [Frame.InRange], hstack⟩) h
  · exact inRange_of_readAfter _ hstack (inRange_obj.mpr (by simp)) h
  · exact inRange_of_readValue _ (List.forall_mem_cons.mpr ⟨by simp [Frame.InRange], hstack⟩) h
  · cases h
termination_by tokens.length

theorem inRange_of_readAfter (tokens : List Token) {stack : List Frame} {j v : Json}
    (hstack : ∀ f ∈ stack, f.InRange) (hj : j.InRange) (h : readAfter stack j tokens = some v) :
    v.InRange := by
  unfold readAfter at h
  split at h
  · -- the text ends
    split at h
    · exact Option.some.inj h ▸ hj
    · cases h
  · -- the value joins those before it, and another one follows
    split at h
    · obtain ⟨hdone, hrest⟩ := List.forall_mem_cons.mp hstack
      exact inRange_of_readValue _
        (List.forall_mem_cons.mpr ⟨Frame.inRange_arr_cons hj hdone, hrest⟩) h
    · obtain ⟨hdone, hrest⟩ := List.forall_mem_cons.mp hstack
      split at h
      · exact inRange_of_readValue _
          (List.forall_mem_cons.mpr ⟨Frame.inRange_obj_cons hj hdone, hrest⟩) h
      · cases h
    · cases h
  · -- an array is closed
    split at h
    · obtain ⟨hdone, hrest⟩ := List.forall_mem_cons.mp hstack
      refine inRange_of_readAfter _ hrest (inRange_arr.mpr fun i hi => ?_) h
      exact Frame.inRange_arr_cons hj hdone i (List.mem_reverse.mp hi)
    · cases h
  · -- an object is closed
    split at h
    · obtain ⟨hdone, hrest⟩ := List.forall_mem_cons.mp hstack
      exact inRange_of_readAfter _ hrest
        (inRange_closeObject (List.forall_mem_cons.mpr ⟨hj, hdone⟩) _) h
    · cases h
  · cases h
termination_by tokens.length

end

/-- **The numbers of a text** are words or finite. -/
theorem inRange_of_ofText? {text : String} (h : ofText? text = some j) : j.InRange := by
  obtain ⟨tokens, -, hread⟩ := Option.bind_eq_some_iff.mp h
  have hempty : ∀ f ∈ ([] : List Frame), f.InRange := by simp
  exact inRange_of_readValue tokens hempty hread

theorem inRange_of_ofDocument? {text : String} (h : ofDocument? text = some j) : j.InRange := by
  obtain ⟨v, hv, rfl⟩ := Option.map_eq_some_iff.mp h
  exact inRange_trimDepth nestingLimit (inRange_of_ofText? hv)

end Json

end Questline

import Questline.Proofs.Guard.Depth

/-! # What guards read

A leaf of a guard reads the value of a path or a flag, and nothing else of the facts. Of a number it
sees only its place on the number line. So facts that look alike in all that a guard reads give it
the same verdict.

* `Reading`: what a leaf reads. `Reading.Agrees`: two collections of facts show the same there.
  `Reading.Alike`: they show what no guard can tell apart.
* `Guard.Reads`: a leaf within the bound of the depth guard reads it.
* `Guard.holds_congr_alike`, `Guard.holds_congr`, `Guard.allHold_congr`: a verdict depends only on
  what is read. -/

namespace Questline

/-! ### Numbers and literals as guards see them -/

/-- Numbers at one place stand in the same relations. -/
theorem Comparison.ofNumbers_congr {x y : Binary64} (h : x.key = y.key) (op : Comparison)
    (z : Binary64) : op.ofNumbers x z = op.ofNumbers y z := by
  cases op <;> simp only [ofNumbers, Binary64.equals, Binary64.lt, Binary64.le, h]

/-- **Literals that guards cannot tell apart:** equal ones, and two floats at one place of the
number line. -/
inductive Literal.Alike : Literal → Literal → Prop
  | refl (a : Literal) : Alike a a
  | float {x y : Binary64} (h : x.key = y.key) : Alike (.float x) (.float y)

namespace Literal.Alike

variable {a b : Literal}

theorem agrees_eq (h : a.Alike b) (c : Literal) : a.agrees c = b.agrees c := by
  cases h with
  | refl => rfl
  | float h =>
    cases c with
    | int i => exact Comparison.ofNumbers_congr h .eq _
    | float z => exact Comparison.ofNumbers_congr h .eq z
    | _ => rfl

theorem relates_eq (h : a.Alike b) (op : Comparison) (c : Literal) :
    op.relates a c = op.relates b c := by
  cases op with
  | eq => exact h.agrees_eq c
  | ne => exact congrArg (!·) (h.agrees_eq c)
  | _ =>
    -- the other comparisons look at numbers only
    cases h with
    | refl => rfl
    | float h =>
      cases c <;> simp only [Comparison.relates, Literal.number?, Comparison.ofNumbers_congr h]

end Literal.Alike

/-! ### Readings -/

/-- What a leaf of a guard reads of the facts. -/
inductive Reading where
  | path (path : String)
  | flag (space name : String)
deriving DecidableEq

/-- Two collections of facts show the same in a reading. -/
def Reading.Agrees (f f' : Facts) : Reading → Prop
  | .path p => f.resolve p = f'.resolve p
  | .flag s n => f.flagValue s n = f'.flagValue s n

/-- Two collections of facts show in a reading what no guard can tell apart. -/
def Reading.Alike (f f' : Facts) : Reading → Prop
  | .path p => Option.Rel Literal.Alike (f.resolve p) (f'.resolve p)
  | .flag s n => f.flagValue s n = f'.flagValue s n

theorem Literal.Alike.rel_refl (value : Option Literal) : Option.Rel Alike value value := by
  cases value with
  | none => exact .none
  | some a => exact .some (.refl a)

theorem Reading.Agrees.alike {f f' : Facts} {r : Reading} (h : r.Agrees f f') : r.Alike f f' := by
  cases r with
  | path p =>
    have hsame : f.resolve p = f'.resolve p := h
    rw [Alike, hsame]
    exact Literal.Alike.rel_refl _
  | flag s n => exact h

/-- **The value of a path** in facts with the same numbers: it is related if it is a flag that is
the same, or a scalar that is related. -/
theorem Facts.resolve_rel {R : Literal → Literal → Prop} (hrefl : ∀ a, R a a) {f f' : Facts}
    {path : String} (hrel : f.rel = f'.rel) (hinv : f.inv = f'.inv)
    (hcurrency : f.currency = f'.currency)
    (hflag : ∀ space name, segments path = ["flag", space, name] →
      f.flagValue space name = f'.flagValue space name)
    (hstate : ∀ space key, segments path = ["state", space, key] →
      Option.Rel R (f.state.find? space key) (f'.state.find? space key)) :
    Option.Rel R (f.resolve path) (f'.resolve path) := by
  have hsame : ∀ value : Option Literal, Option.Rel R value value := fun value => by
    cases value with
    | none => exact .none
    | some a => exact .some (hrefl a)
  have hquantity : f.quantity = f'.quantity := by
    funext parts
    unfold quantity
    rw [hinv]
  unfold resolve
  generalize segments path = parts at hflag hstate
  unfold resolveSegments
  rw [hrel, hcurrency, hquantity]
  split
  case h_4 rest =>
    rcases rest with _ | ⟨space, _ | ⟨name, _ | ⟨other, rest⟩⟩⟩
    · exact hsame _
    · exact hsame _
    · have hseen := congrArg (fun b => some (Literal.bool b)) (hflag space name rfl)
      exact hseen ▸ hsame _
    · exact hsame _
  case h_5 space key => exact hstate space key rfl
  all_goals exact hsame _

theorem rel_eq_iff {value value' : Option Literal} :
    Option.Rel (· = ·) value value' ↔ value = value' := by
  constructor
  · intro h
    cases h with
    | some h => rw [h]
    | none => rfl
  · rintro rfl
    cases value with
    | none => exact .none
    | some a => exact .some rfl

/-- Facts with the same numbers show the same at a path if they do so of its flag or scalar. -/
theorem Facts.resolve_congr {f f' : Facts} {path : String} (hrel : f.rel = f'.rel)
    (hinv : f.inv = f'.inv) (hcurrency : f.currency = f'.currency)
    (hflag : ∀ space name, segments path = ["flag", space, name] →
      f.flagValue space name = f'.flagValue space name)
    (hstate : ∀ space key, segments path = ["state", space, key] →
      f.state.find? space key = f'.state.find? space key) :
    f.resolve path = f'.resolve path :=
  rel_eq_iff.mp (resolve_rel (fun _ => rfl) hrel hinv hcurrency hflag
    fun space key hpath => rel_eq_iff.mpr (hstate space key hpath))

/-- Facts with the same numbers and flags are alike if their scalars are, at the keys of paths. -/
theorem Facts.alike {f f' : Facts} {r : Reading} (hrel : f.rel = f'.rel) (hinv : f.inv = f'.inv)
    (hcurrency : f.currency = f'.currency)
    (hflag : ∀ space name, f.flagValue space name = f'.flagValue space name)
    (hstate : ∀ path space key, segments path = ["state", space, key] →
      Option.Rel Literal.Alike (f.state.find? space key) (f'.state.find? space key)) :
    r.Alike f f' := by
  cases r with
  | flag space name => exact hflag space name
  | path p =>
    exact resolve_rel .refl hrel hinv hcurrency (fun space name _ => hflag space name) (hstate p)

namespace Guard

/-- What a leaf reads; a combinator itself reads nothing. -/
def reading? : Guard → Option Reading
  | .compare _ path _ => some (.path path)
  | .oneOf path _ => some (.path path)
  | .flag space name _ => some (.flag space name)
  | _ => none

/-- **A guard reads something** if a leaf does that lies under at most `maxDepth` combinators. -/
def Reads (g : Guard) (r : Reading) : Prop :=
  ∃ n p, PartAt n p g ∧ n ≤ maxDepth ∧ p.reading? = some r

theorem comparisonHolds_congr {f f' : Facts} {path : String} (h : (Reading.path path).Alike f f')
    (op : Comparison) (literal : Literal) :
    comparisonHolds f op path literal = comparisonHolds f' op path literal := by
  have hvalue : Option.Rel Literal.Alike (f.resolve path) (f'.resolve path) := h
  unfold comparisonHolds
  generalize f.resolve path = value, f'.resolve path = value' at hvalue
  cases hvalue with
  | some hab => exact hab.relates_eq op literal
  | none => rfl

theorem membershipHolds_congr {f f' : Facts} {path : String} (h : (Reading.path path).Alike f f')
    (candidates : List Literal) :
    membershipHolds f path candidates = membershipHolds f' path candidates := by
  have hvalue : Option.Rel Literal.Alike (f.resolve path) (f'.resolve path) := h
  unfold membershipHolds
  generalize f.resolve path = value, f'.resolve path = value' at hvalue
  cases hvalue with
  | some hab => exact congrArg candidates.any (funext hab.agrees_eq)
  | none => rfl

/-- The verdict depends only on what the leaves within its levels read. -/
theorem verdict_congr {f f' : Facts} {levels : Nat} {g : Guard}
    (h : ∀ n p r, PartAt n p g → n < levels → p.reading? = some r → r.Alike f f') :
    verdict f levels g = verdict f' levels g := by
  induction g generalizing levels with
  | compare op path literal =>
    cases levels with
    | zero => rfl
    | succ levels =>
      have hpath : (Reading.path path).Alike f f' := h 0 _ _ (.self _) (by omega) rfl
      rw [verdict, verdict, comparisonHolds_congr hpath]
  | oneOf path candidates =>
    cases levels with
    | zero => rfl
    | succ levels =>
      have hpath : (Reading.path path).Alike f f' := h 0 _ _ (.self _) (by omega) rfl
      rw [verdict, verdict, membershipHolds_congr hpath]
  | flag space name expected =>
    cases levels with
    | zero => rfl
    | succ levels =>
      have hflag : f.flagValue space name = f'.flagValue space name :=
        h 0 _ _ (.self _) (by omega) rfl
      rw [verdict, verdict, hflag]
  | all gs ih =>
    cases levels with
    | zero => rfl
    | succ levels =>
      rw [verdict, verdict, verdictAll_eq, verdictAll_eq]
      refine congrArg (firstOther true) (List.map_congr_left fun g hg => ih g hg ?_)
      intro n p r hp hn
      exact h (n + 1) p r (.all hg hp) (by omega)
  | any gs ih =>
    cases levels with
    | zero => rfl
    | succ levels =>
      rw [verdict, verdict, verdictAny_eq, verdictAny_eq]
      refine congrArg (firstOther false) (List.map_congr_left fun g hg => ih g hg ?_)
      intro n p r hp hn
      exact h (n + 1) p r (.any hg hp) (by omega)
  | not g ih =>
    cases levels with
    | zero => rfl
    | succ levels =>
      rw [verdict, verdict, ih fun n p r hp hn => h (n + 1) p r (.not hp) (by omega)]

/-- **Facts that look alike in all that a guard reads give it the same verdict.** -/
theorem holds_congr_alike {f f' : Facts} {g : Guard} (h : ∀ r, g.Reads r → r.Alike f f') :
    g.holds f = g.holds f' := by
  unfold holds
  rw [verdict_congr fun n p r hp hn hr => h r ⟨n, p, hp, Nat.lt_succ_iff.mp hn, hr⟩]

theorem holds_congr {f f' : Facts} {g : Guard} (h : ∀ r, g.Reads r → r.Agrees f f') :
    g.holds f = g.holds f' :=
  holds_congr_alike fun r hr => (h r hr).alike

theorem allHold_congr {f f' : Facts} {gs : List Guard}
    (h : ∀ g ∈ gs, ∀ r, g.Reads r → r.Agrees f f') : allHold gs f = allHold gs f' := by
  induction gs with
  | nil => rfl
  | cons g rest ih =>
    obtain ⟨hg, hrest⟩ := List.forall_mem_cons.mp h
    have hrest := ih hrest
    unfold allHold at hrest ⊢
    rw [List.all_cons, List.all_cons, holds_congr hg, hrest]

end Guard

end Questline

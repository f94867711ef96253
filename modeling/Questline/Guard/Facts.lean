import Questline.Dict
import Questline.Guard.Literal

/-! # Facts

What guards can read: relationship values, item quantities, balances, flags and free scalars, each
addressed by two keys. A dotted path such as `rel.kiera.trust` names the kind of fact first.

* `Facts.add`: records a `Fact`. `Facts.ofList`: records a list of them.
* `Facts.resolve`: the value of a path. Numbers and flags that are absent are `0` and `false`;
  only a path of the kind `state`, or of no kind, may be without a value.
* `segments`: the parts of a path between its dots. -/

namespace Questline

/-- So many items of one sort. -/
structure ItemStack where
  qty : Int64
deriving DecidableEq

/-- The facts that guards read. -/
structure Facts where
  rel : Table Int64
  inv : Table ItemStack
  currency : Table Int64
  flag : Table Bool
  state : Table Literal
deriving DecidableEq

/-- One fact, with its kind and its two keys. -/
inductive Fact where
  /-- A relationship value of an entity. -/
  | rel (entity stat : String) (value : Int64)
  /-- How many of an item an owner has. -/
  | item (owner item : String) (qty : Int64)
  /-- A balance of an owner. -/
  | currency (owner name : String) (amount : Int64)
  | flag (space name : String) (value : Bool)
  /-- A free scalar. -/
  | state (space key : String) (value : Literal)
deriving DecidableEq

/-- The parts of a text between its dots; a text without a dot has one part. -/
def splitDots : List Char → List (List Char)
  | [] => [[]]
  | c :: rest =>
    if c = '.' then [] :: splitDots rest
    else match splitDots rest with
      | [] => [[c]]
      | part :: parts => (c :: part) :: parts

/-- **The segments of a path.** -/
def segments (path : String) : List String := (splitDots path.toList).map String.ofList

namespace Facts

/-- No facts at all. -/
def empty : Facts := ⟨.empty, .empty, .empty, .empty, .empty⟩

instance : Inhabited Facts := ⟨empty⟩

/-- **Records a fact**, in place of an earlier one of the same kind and keys. -/
def add (f : Facts) : Fact → Facts
  | .rel entity stat value => { f with rel := f.rel.put entity stat value }
  | .item owner item qty => { f with inv := f.inv.put owner item ⟨qty⟩ }
  | .currency owner name amount => { f with currency := f.currency.put owner name amount }
  | .flag space name value => { f with flag := f.flag.put space name value }
  | .state space key value => { f with state := f.state.put space key value }

/-- The facts recorded one after the other. -/
def ofList (facts : List Fact) : Facts := facts.foldl add empty

/-- The value of a flag, false when it is absent. -/
def flagValue (f : Facts) (space name : String) : Bool := (f.flag.find? space name).getD false

/-- The value at two segments, or a default when there are not two or nothing is there. -/
def atPair {α : Type} (t : Table α) (default : α) : List String → α
  | [outer, inner] => (t.find? outer inner).getD default
  | _ => default

/-- The quantity at an owner and an item, which `qty` may follow. -/
def quantity (f : Facts) : List String → Int64
  | [owner, item] => (atPair f.inv ⟨0⟩ [owner, item]).qty
  | [owner, item, "qty"] => (atPair f.inv ⟨0⟩ [owner, item]).qty
  | _ => 0

/-- **The value of a path** given as its segments. -/
def resolveSegments (f : Facts) : List String → Option Literal
  | "rel" :: rest => some (.int (atPair f.rel 0 rest))
  | "currency" :: rest => some (.int (atPair f.currency 0 rest))
  | "inv" :: rest => some (.int (f.quantity rest))
  | "flag" :: rest => some (.bool (atPair f.flag false rest))
  | ["state", space, key] => f.state.find? space key
  | _ => none

/-- **The value of a dotted path.** -/
def resolve (f : Facts) (path : String) : Option Literal := f.resolveSegments (segments path)

end Facts

end Questline

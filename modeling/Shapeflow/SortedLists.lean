import Mathlib.Data.List.Sort
import Mathlib.Data.String.Basic

set_option autoImplicit false

/-!
# Sorted lists

Sorting forgets the order of what it sorts where no two elements tie.
-/
namespace Shapeflow.SortedLists

/-! ## The order of texts -/

instance textLeTrans : IsTrans String (· ≤ ·) := inferInstance

instance textLeAntisymm : Std.Antisymm (α := String) (· ≤ ·) := inferInstance

instance textLeTotal : Std.Total (α := String) (· ≤ ·) := inferInstance

/-! ## Insertion sort -/

theorem insertionSort_eq_of_perm {α : Type} (r : α → α → Prop) [DecidableRel r] [Std.Total r] [IsTrans α r]
    [Std.Antisymm r] {l l' : List α} (h : l.Perm l') : l.insertionSort r = l'.insertionSort r :=
  List.Perm.eq_of_pairwise (fun _ _ _ _ => Std.Antisymm.antisymm _ _) (List.pairwise_insertionSort r l)
    (List.pairwise_insertionSort r l')
    ((List.perm_insertionSort r l).trans (h.trans (List.perm_insertionSort r l').symm))

theorem pairwise_insertionSort_key {α κ : Type} [LinearOrder κ] (key : α → κ) (xs : List α) :
    (xs.insertionSort fun a b => key a ≤ key b).Pairwise fun a b => key a ≤ key b :=
  have : Std.Total fun a b => key a ≤ key b := ⟨fun a b => le_total (key a) (key b)⟩
  have : IsTrans α fun a b => key a ≤ key b := ⟨fun _ _ _ h h' => le_trans h h'⟩
  List.pairwise_insertionSort _ xs

end Shapeflow.SortedLists

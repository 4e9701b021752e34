import Mathlib.Algebra.BigOperators.Group.List.Basic
import Mathlib.Data.List.Nodup
import Mathlib.Data.List.Count
import Mathlib.Tactic.Abel
import Shapeflow.Script

set_option autoImplicit false

/-!
# Constrained tables

A table is a list of rows in insertion order that carries the proof of its
schema: the keys and unique indexes that the engine enforces. A write builds
the new rows first and is refused as a whole when they break the schema.
-/
namespace Shapeflow

structure Table {ρ : Type} (schema : List ρ → Prop) where
  rows : List ρ
  sound : schema rows

namespace Table
variable {ρ κ : Type}

theorem ext_rows {schema : List ρ → Prop} {t u : Table schema} (h : t.rows = u.rows) : t = u := by
  cases t
  cases u
  cases h
  rfl

/-- The rows after `UPDATE .. SET f WHERE p`. -/
def updated (p : ρ → Bool) (f : ρ → ρ) (rows : List ρ) : List ρ :=
  rows.map fun r => if p r then f r else r

theorem mem_updated {p : ρ → Bool} {f : ρ → ρ} {rows : List ρ} {r : ρ} :
    r ∈ updated p f rows ↔ ∃ q ∈ rows, (if p q then f q else q) = r := by
  simp [updated]

theorem length_updated (p : ρ → Bool) (f : ρ → ρ) (rows : List ρ) :
    (updated p f rows).length = rows.length := by
  simp [updated]

/-- An update that leaves the value of `g` on the rows it touches leaves the column `g`. -/
theorem map_updated {p : ρ → Bool} {f : ρ → ρ} {rows : List ρ} (g : ρ → κ)
    (h : ∀ r ∈ rows, p r = true → g (f r) = g r) :
    (updated p f rows).map g = rows.map g := by
  simp only [updated, List.map_map]
  apply List.map_congr_left
  intro r hr
  by_cases hp : p r = true
  · simp [hp, h r hr hp]
  · simp [hp]

theorem updated_eq_self {p : ρ → Bool} {f : ρ → ρ} {rows : List ρ}
    (h : ∀ r ∈ rows, p r = false) : updated p f rows = rows := by
  unfold updated
  conv_rhs => rw [← List.map_id rows]
  apply List.map_congr_left
  intro r hr
  simp [h r hr]

/-- Two updates of the same rows are one. -/
theorem updated_updated {p : ρ → Bool} {f g : ρ → ρ} {rows : List ρ} (h : ∀ r, p (g r) = p r) :
    updated p f (updated p g rows) = updated p (fun r => f (g r)) rows := by
  simp only [updated, List.map_map]
  apply List.map_congr_left
  intro r _
  by_cases hp : p r = true
  · simp [hp, h]
  · simp [hp]

/-- Selecting by a test that the update does not change commutes with the update. -/
theorem filter_updated {p q : ρ → Bool} {f : ρ → ρ} {rows : List ρ}
    (h : ∀ r ∈ rows, p r = true → q (f r) = q r) :
    (updated p f rows).filter q = updated p f (rows.filter q) := by
  induction rows with
  | nil => rfl
  | cons r rows ih =>
    have ih := ih fun r hr => h r (List.mem_cons_of_mem _ hr)
    have hq : q (if p r then f r else r) = q r := by
      by_cases hp : p r = true
      · simp [hp, h r (by simp) hp]
      · simp [hp]
    simp only [updated, List.map_cons] at ih ⊢
    by_cases hr : q r = true
    · rw [List.filter_cons_of_pos (by rw [hq]; exact hr), List.filter_cons_of_pos hr, List.map_cons, ih]
    · rw [List.filter_cons_of_neg (by rw [hq]; exact hr), List.filter_cons_of_neg hr, ih]

theorem find?_updated {p q : ρ → Bool} {f : ρ → ρ} {rows : List ρ}
    (h : ∀ r ∈ rows, p r = true → q (f r) = q r) :
    (updated p f rows).find? q = (rows.find? q).map fun r => if p r then f r else r := by
  induction rows with
  | nil => rfl
  | cons r rows ih =>
    have ih := ih fun r hr => h r (List.mem_cons_of_mem _ hr)
    have hq : q (if p r then f r else r) = q r := by
      by_cases hp : p r = true
      · simp [hp, h r (by simp) hp]
      · simp [hp]
    simp only [updated, List.map_cons] at ih ⊢
    by_cases hr : q r = true
    · rw [List.find?_cons_of_pos (by rw [hq]; exact hr), List.find?_cons_of_pos hr, Option.map_some]
    · rw [List.find?_cons_of_neg (by rw [hq]; exact hr), List.find?_cons_of_neg hr, ih]

/-- Updating the one row of key `k` moves a sum over the column `g` by that row's change. -/
theorem sum_updated [DecidableEq κ] {M : Type} [AddCommMonoid M] (key : ρ → κ) (f : ρ → ρ)
    (g : ρ → M) {rows : List ρ} (hnodup : (rows.map key).Nodup) {r : ρ} (hr : r ∈ rows) :
    ((updated (fun q => key q = key r) f rows).map g).sum + g r = (rows.map g).sum + g (f r) := by
  induction rows with
  | nil => simp at hr
  | cons q rows ih =>
    simp only [List.map_cons, List.nodup_cons] at hnodup
    by_cases hq : key q = key r
    · have hqr : q = r := by
        rcases List.mem_cons.mp hr with rfl | hr
        · rfl
        · exact absurd (hq ▸ List.mem_map_of_mem hr) hnodup.1
      subst hqr
      have hrest : updated (fun p => key p = key q) f rows = rows := updated_eq_self fun p hp => by
        have hne : key p ≠ key q := fun e => hnodup.1 (e ▸ List.mem_map_of_mem hp)
        simp [hne]
      have hcons : updated (fun p => key p = key q) f (q :: rows) =
          f q :: updated (fun p => key p = key q) f rows := by simp [updated]
      rw [hcons, hrest]
      simp only [List.map_cons, List.sum_cons]
      abel
    · have hr' : r ∈ rows := by
        rcases List.mem_cons.mp hr with rfl | hr
        · exact absurd rfl hq
        · exact hr
      have hcons : updated (fun p => key p = key r) f (q :: rows) =
          q :: updated (fun p => key p = key r) f rows := by simp [updated, hq]
      rw [hcons]
      simp only [List.map_cons, List.sum_cons, add_assoc, ih hnodup.2 hr']

theorem countP_eq_sum (q : ρ → Bool) (rows : List ρ) :
    rows.countP q = (rows.map fun r => if q r then 1 else 0).sum := by
  induction rows with
  | nil => rfl
  | cons r rows ih =>
    rw [List.countP_cons, ih, List.map_cons, List.sum_cons, Nat.add_comm]

/-- Updating the one row of key `k` moves a count by that row's change. -/
theorem countP_updated [DecidableEq κ] (key : ρ → κ) (f : ρ → ρ) (q : ρ → Bool) {rows : List ρ}
    (hnodup : (rows.map key).Nodup) {r : ρ} (hr : r ∈ rows) :
    (updated (fun x => key x = key r) f rows).countP q + (if q r then 1 else 0) =
      rows.countP q + (if q (f r) then 1 else 0) := by
  rw [countP_eq_sum, countP_eq_sum]
  exact sum_updated key f _ hnodup hr

/-- Two rows of a table with distinct keys that share a key are one row. -/
theorem eq_of_key {key : ρ → κ} {rows : List ρ} (hnodup : (rows.map key).Nodup) {q r : ρ}
    (hq : q ∈ rows) (hr : r ∈ rows) (h : key q = key r) : q = r :=
  List.inj_on_of_nodup_map hnodup hq hr h

theorem find?_of_mem [DecidableEq κ] {key : ρ → κ} {rows : List ρ} (hnodup : (rows.map key).Nodup)
    {r : ρ} (hr : r ∈ rows) : rows.find? (fun q => key q = key r) = some r := by
  cases h : rows.find? (fun q => key q = key r) with
  | none =>
    have := List.find?_eq_none.mp h r hr
    simp at this
  | some q =>
    have hkey : key q = key r := by simpa using List.find?_some h
    rw [eq_of_key hnodup (List.mem_of_find?_eq_some h) hr hkey]

theorem mem_of_find? [DecidableEq κ] {key : ρ → κ} {rows : List ρ} {k : κ} {r : ρ}
    (h : rows.find? (fun q => key q = k) = some r) : r ∈ rows ∧ key r = k :=
  ⟨List.mem_of_find?_eq_some h, by simpa using List.find?_some h⟩

/-! ## Partial unique indexes -/

/-- An update that brings no row into the index only shrinks it. -/
theorem index_updated_sublist {p q : ρ → Bool} {f : ρ → ρ} {ix : ρ → κ} {rows : List ρ}
    (hix : ∀ r, ix (f r) = ix r) (hq : ∀ r, q (f r) = true → q r = true) :
    List.Sublist (((updated p f rows).filter q).map ix) ((rows.filter q).map ix) := by
  induction rows with
  | nil => exact List.Sublist.refl _
  | cons r rows ih =>
    have hcons : updated p f (r :: rows) = (if p r then f r else r) :: updated p f rows := rfl
    have hkey : ix (if p r then f r else r) = ix r := by
      by_cases hp : p r = true <;> simp [hp, hix]
    have hin : q (if p r then f r else r) = true → q r = true := by
      by_cases hp : p r = true
      · simpa [hp] using hq r
      · simp [hp]
    rw [hcons, List.filter_cons, List.filter_cons]
    by_cases hc : q (if p r then f r else r) = true
    · simp only [hc, hin hc, if_true, List.map_cons, hkey]
      exact ih.cons_cons _
    · simp only [hc, Bool.false_eq_true, if_false]
      by_cases hr : q r = true
      · simp only [hr, if_true, List.map_cons]
        exact ih.cons _
      · simp only [hr, Bool.false_eq_true, if_false]
        exact ih

/-- Bringing one row into the index is fine while no row of its index key is there. -/
theorem index_updated_nodup {ι : Type} [DecidableEq κ] {key : ρ → κ} {q : ρ → Bool} {f : ρ → ρ}
    {ix : ρ → ι} {rows : List ρ} (hkey : (rows.map key).Nodup) (hix : ((rows.filter q).map ix).Nodup)
    {r : ρ} (hr : r ∈ rows) (hf : ix (f r) = ix r) (hfree : ∀ x ∈ rows, ix x = ix r → q x = false) :
    (((updated (fun x => key x = key r) f rows).filter q).map ix).Nodup := by
  induction rows with
  | nil => exact List.nodup_nil
  | cons x rows ih =>
    simp only [List.map_cons, List.nodup_cons] at hkey
    have hrest : ((rows.filter q).map ix).Nodup := by
      refine List.Nodup.sublist ?_ hix
      exact List.Sublist.map _ (List.Sublist.filter _ (List.sublist_cons_self x rows))
    by_cases hx : key x = key r
    · have hxr : x = r := by
        rcases List.mem_cons.mp hr with h | h
        · exact h.symm
        · exact absurd (hx ▸ List.mem_map_of_mem h) hkey.1
      subst hxr
      have hsame : updated (fun y => key y = key x) f rows = rows := updated_eq_self fun y hy => by
        have hne : key y ≠ key x := fun e => hkey.1 (e ▸ List.mem_map_of_mem hy)
        simp [hne]
      have hcons : updated (fun y => key y = key x) f (x :: rows) = f x :: rows := by
        conv_rhs => rw [← hsame]
        simp [updated]
      rw [hcons, List.filter_cons]
      split
      · rw [List.map_cons, List.nodup_cons, hf]
        refine ⟨?_, hrest⟩
        intro hmem
        obtain ⟨y, hy, hyx⟩ := List.mem_map.mp hmem
        obtain ⟨hy, hqy⟩ := List.mem_filter.mp hy
        rw [hfree y (by simp [hy]) hyx] at hqy
        cases hqy
      · exact hrest
    · have hr' : r ∈ rows := by
        rcases List.mem_cons.mp hr with h | h
        · exact absurd (congrArg key h.symm) hx
        · exact h
      have ih := ih hkey.2 hrest hr' fun y hy => hfree y (by simp [hy])
      have hcons : updated (fun y => key y = key r) f (x :: rows) =
          x :: updated (fun y => key y = key r) f rows := by simp [updated, hx]
      rw [hcons, List.filter_cons]
      split
      · rename_i hqx
        rw [List.filter_cons_of_pos hqx, List.map_cons, List.nodup_cons] at hix
        rw [List.map_cons, List.nodup_cons]
        refine ⟨?_, ih⟩
        intro hmem
        obtain ⟨y, hy, hyx⟩ := List.mem_map.mp hmem
        obtain ⟨hy, hqy⟩ := List.mem_filter.mp hy
        obtain ⟨z, hz, rfl⟩ := mem_updated.mp hy
        by_cases hzr : key z = key r
        · have hzeq : z = r := eq_of_key hkey.2 hz hr' hzr
          subst hzeq
          simp only [decide_true, if_true, hf] at hyx
          rw [hfree x (by simp) hyx.symm] at hqx
          cases hqx
        · simp only [hzr, decide_false, Bool.false_eq_true, if_false] at hyx hqy
          exact hix.1 (hyx ▸ List.mem_map_of_mem (List.mem_filter.mpr ⟨hz, hqy⟩))
      · exact ih

end Table

/-- Where a table lives in a store. -/
structure Slot (σ : Type) {ρ : Type} (schema : List ρ → Prop) where
  get : σ → Table schema
  put : Table schema → σ → σ

namespace Slot
variable {σ ε ρ : Type} {schema : List ρ → Prop} [DecidablePred schema]

/-- Replace the rows of a table, or raise `integrity` when they break its schema. -/
def write (slot : Slot σ schema) (integrity : ε) (rows : List ρ) : Script σ ε Unit := fun s =>
  if h : schema rows then (.ok (), slot.put ⟨rows, h⟩ s) else (.error integrity, s)

/-- `INSERT INTO`. -/
def insert (slot : Slot σ schema) (integrity : ε) (row : ρ) : Script σ ε Unit := fun s =>
  slot.write integrity ((slot.get s).rows ++ [row]) s

/-- `INSERT OR IGNORE INTO`. -/
def insertOrIgnore (slot : Slot σ schema) (row : ρ) : Script σ ε Unit := fun s =>
  if h : schema ((slot.get s).rows ++ [row]) then (.ok (), slot.put ⟨_, h⟩ s) else (.ok (), s)

/-- `UPDATE .. SET f WHERE p`; the value is the row count. -/
def update (slot : Slot σ schema) (integrity : ε) (p : ρ → Bool) (f : ρ → ρ) : Script σ ε ℕ := do
  let s ← Script.getStore
  slot.write integrity (Table.updated p f (slot.get s).rows)
  pure ((slot.get s).rows.countP p)

theorem write_ok {slot : Slot σ schema} {integrity : ε} {rows : List ρ} {s t : σ} {u : Unit} :
    slot.write integrity rows s = (.ok u, t) ↔ ∃ h : schema rows, t = slot.put ⟨rows, h⟩ s := by
  unfold write
  split
  · rename_i h
    simp only [Prod.mk.injEq, true_and]
    exact ⟨fun e => ⟨h, e.symm⟩, fun ⟨_, e⟩ => e.symm⟩
  · rename_i h
    simp [h]

theorem insert_ok {slot : Slot σ schema} {integrity : ε} {row : ρ} {s t : σ} {u : Unit} :
    slot.insert integrity row s = (.ok u, t) ↔
      ∃ h : schema ((slot.get s).rows ++ [row]), t = slot.put ⟨_, h⟩ s := by
  exact write_ok

theorem update_ok {slot : Slot σ schema} {integrity : ε} {p : ρ → Bool} {f : ρ → ρ} {s t : σ} {n : ℕ} :
    slot.update integrity p f s = (.ok n, t) ↔
      n = (slot.get s).rows.countP p ∧
        ∃ h : schema (Table.updated p f (slot.get s).rows), t = slot.put ⟨_, h⟩ s := by
  unfold update
  rw [Script.getStore_bind, Script.bind_ok]
  constructor
  · rintro ⟨_, u, hw, hn⟩
    simp only [Script.pure_run, Prod.mk.injEq, Except.ok.injEq] at hn
    obtain ⟨rfl, rfl⟩ := hn
    exact ⟨rfl, write_ok.mp hw⟩
  · rintro ⟨rfl, h⟩
    exact ⟨(), t, write_ok.mpr h, rfl⟩

theorem insertOrIgnore_run (slot : Slot σ schema) (row : ρ) (s : σ) :
    ∃ t, (slot.insertOrIgnore row : Script σ ε Unit) s = (.ok (), t) ∧
      (t = s ∨ ∃ h : schema ((slot.get s).rows ++ [row]), t = slot.put ⟨_, h⟩ s) := by
  unfold insertOrIgnore
  split
  · rename_i h
    exact ⟨_, rfl, .inr ⟨h, rfl⟩⟩
  · exact ⟨s, rfl, .inl rfl⟩

theorem update_of_schema (slot : Slot σ schema) (integrity : ε) {p : ρ → Bool} {f : ρ → ρ} {s : σ}
    (h : schema (Table.updated p f (slot.get s).rows)) :
    slot.update integrity p f s = (.ok ((slot.get s).rows.countP p), slot.put ⟨_, h⟩ s) :=
  update_ok.mpr ⟨rfl, h, rfl⟩

theorem insert_of_schema (slot : Slot σ schema) (integrity : ε) {row : ρ} {s : σ}
    (h : schema ((slot.get s).rows ++ [row])) :
    slot.insert integrity row s = (.ok (), slot.put ⟨_, h⟩ s) :=
  insert_ok.mpr ⟨h, rfl⟩

theorem update_of_not_schema (slot : Slot σ schema) (integrity : ε) {p : ρ → Bool} {f : ρ → ρ} {s : σ}
    (h : ¬ schema (Table.updated p f (slot.get s).rows)) :
    slot.update integrity p f s = (.error integrity, s) :=
  Script.bind_of_error (x := slot.write integrity (Table.updated p f (slot.get s).rows)) (dif_neg h)

/-- A write only raises for the schema, and then writes nothing. -/
theorem write_error {slot : Slot σ schema} {integrity e : ε} {rows : List ρ} {s t : σ} :
    slot.write integrity rows s = (.error e, t) ↔ e = integrity ∧ t = s ∧ ¬ schema rows := by
  unfold write
  split
  · rename_i h
    simp [h]
  · rename_i h
    simp only [Prod.mk.injEq, Except.error.injEq, h, not_false_eq_true, and_true]
    exact ⟨fun ⟨a, b⟩ => ⟨a.symm, b.symm⟩, fun ⟨a, b⟩ => ⟨a.symm, b.symm⟩⟩

theorem insert_error {slot : Slot σ schema} {integrity e : ε} {row : ρ} {s t : σ}
    (h : slot.insert integrity row s = (.error e, t)) : e = integrity :=
  (write_error.mp h).1

theorem update_error {slot : Slot σ schema} {integrity e : ε} {p : ρ → Bool} {f : ρ → ρ} {s t : σ}
    (h : slot.update integrity p f s = (.error e, t)) : e = integrity := by
  unfold update at h
  rw [Script.getStore_bind] at h
  rcases Script.bind_error.mp h with hw | ⟨u, m, -, hn⟩
  · exact (write_error.mp hw).1
  · simp at hn

end Slot
end Shapeflow

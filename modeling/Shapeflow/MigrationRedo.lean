import Shapeflow.Migration

set_option autoImplicit false

/-!
# Migrations that are cut short

Every statement up to the log is guarded by what it brings about, so a
migration that died before the log may be started again. The log is guarded by
nothing but the version, which is written after it.
-/
namespace Shapeflow.Migration
open Script Session Redo

theorem IntervalColumn.mem_all (column : IntervalColumn) : column ∈ all := by
  cases column <;> decide

/-! ## Statements that are done -/

def NotV1 (l : Layout) : Prop := ∀ rows, l.calls ≠ .v1 rows

def Split (l : Layout) : Prop := ∃ calls old, l.calls = .split calls old

/-- What a statement needs of the ones before it. -/
def Ready : Statement → Layout → Prop
  | .createCalls, l => NotV1 l
  | .copyCall _, l => Split l
  | .copyAttempt _, l => l.attempts.isSome
  | .linkReservations _, l => l.reservations.isSome
  | _, _ => True

def Done (ids : DerivedIds) : Statement → Layout → Prop
  | .addAttemptId, l => l.reservations.isSome → l.linked = true
  | .renameCalls, l => NotV1 l
  | .addColumn column, l => l.attempts.isSome → column ∈ l.columns
  | .createReservations, l => l.reservations.isSome
  | .createCalls, l => Split l
  | .createAttempts, l => l.attempts.isSome
  | .createTransitions, l => l.transitions.isSome
  | .copyCall old, l => ∃ calls v1, l.calls = .split calls v1 ∧ ¬ CallKeys (calls.rows ++ [copiedCall ids old])
  | .copyAttempt old, l => ∃ table, l.attempts = some table ∧
      ¬ CallAttemptKeys (table.rows ++ [copiedAttempt ids old])
  | .linkReservations old, l => ∃ table, l.reservations = some table ∧ ∀ r ∈ table.rows, unlinked old r = false

/-- The rows of version 1, in either table. -/
def pastTable (l : Layout) : Option (Table V1Keys) :=
  match l.calls with
  | .v1 rows => some rows
  | .renamed old => some old
  | .split _ old => old
  | .absent => none

/-- What is there stays there, and no reservation loses its attempt. -/
structure Grows (l m : Layout) : Prop where
  linked : (l.reservations.isSome → l.linked = true) → m.reservations.isSome → m.linked = true
  notV1 : NotV1 l → NotV1 m
  columns : ∀ column, (l.attempts.isSome → column ∈ l.columns) → m.attempts.isSome → column ∈ m.columns
  calls : ∀ calls old, l.calls = .split calls old →
    ∃ calls', m.calls = .split calls' old ∧ calls.rows.Sublist calls'.rows
  attempts : ∀ table, l.attempts = some table →
    ∃ table', m.attempts = some table' ∧ table.rows.Sublist table'.rows
  transitions : l.transitions.isSome → m.transitions.isSome
  reservations : ∀ table, l.reservations = some table → ∃ table', m.reservations = some table' ∧
    ∀ r' ∈ table'.rows, ∃ r ∈ table.rows, r.externalCallId = r'.externalCallId ∧
      (r'.attemptId = none → r.attemptId = none)
  past : pastTable m = pastTable l
  version : m.version = l.version

theorem Grows.refl (l : Layout) : Grows l l where
  linked := id
  notV1 := id
  columns := fun _ => id
  calls := fun calls _ h => ⟨calls, h, .refl _⟩
  attempts := fun table h => ⟨table, h, .refl _⟩
  transitions := id
  reservations := fun table h => ⟨table, h, fun r hr => ⟨r, hr, rfl, id⟩⟩
  past := rfl
  version := rfl

theorem insertOrIgnore_sublist {ρ : Type} {schema : List ρ → Prop} [DecidablePred schema]
    (table : Table schema) (row : ρ) : table.rows.Sublist (insertOrIgnore table row).rows := by
  unfold insertOrIgnore
  split
  · exact List.sublist_append_left _ _
  · exact .refl _

variable {ids : DerivedIds}

theorem act_grows (x : Statement) (l : Layout) : Grows l (act ids x l) := by
  cases x with
  | addAttemptId =>
    simp only [act]
    split
    · exact { Grows.refl l with linked := fun _ _ => rfl }
    · exact .refl l
  | renameCalls =>
    simp only [act]
    split
    · rename_i rows hrows
      exact { Grows.refl l with
        notV1 := by intro _ _ h; cases h
        calls := by intro _ _ h; cases hrows.symm.trans h
        past := by simp only [pastTable, hrows] }
    · exact .refl l
  | addColumn column =>
    simp only [act]
    split
    · exact { Grows.refl l with columns := fun c h hsome => List.mem_append_left _ (h hsome) }
    · exact .refl l
  | createReservations =>
    simp only [act]
    split
    · rename_i hnone
      exact { Grows.refl l with
        linked := fun _ _ => rfl
        reservations := by intro _ h; cases hnone.symm.trans h }
    · exact .refl l
  | createCalls =>
    simp only [act]
    split
    · rename_i habsent
      exact { Grows.refl l with
        notV1 := by intro _ _ h; cases h
        calls := by intro _ _ h; cases habsent.symm.trans h
        past := by simp only [pastTable, habsent] }
    · rename_i old hrenamed
      exact { Grows.refl l with
        notV1 := by intro _ _ h; cases h
        calls := by intro _ _ h; cases hrenamed.symm.trans h
        past := by simp only [pastTable, hrenamed] }
    · exact .refl l
  | createAttempts =>
    simp only [act]
    split
    · rename_i hnone
      exact { Grows.refl l with
        columns := fun column _ _ => IntervalColumn.mem_all column
        attempts := by intro _ h; cases hnone.symm.trans h }
    · exact .refl l
  | createTransitions =>
    simp only [act]
    split
    · exact { Grows.refl l with transitions := fun _ => rfl }
    · exact .refl l
  | copyCall old =>
    simp only [act]
    split
    · rename_i calls v1 hsplit
      have hcalls : ∀ c o, l.calls = .split c o → c = calls ∧ o = v1 := by
        intro c o h
        rw [hsplit] at h
        cases h
        exact ⟨rfl, rfl⟩
      exact { Grows.refl l with
        notV1 := by intro _ _ h; cases h
        calls := by
          intro c o h
          obtain ⟨rfl, rfl⟩ := hcalls c o h
          exact ⟨_, rfl, insertOrIgnore_sublist _ _⟩
        past := by simp only [pastTable, hsplit] }
    · exact .refl l
  | copyAttempt old =>
    simp only [act]
    exact { Grows.refl l with
      columns := by
        intro column h hsome
        exact h (by simpa using hsome)
      attempts := by
        intro table h
        exact ⟨_, by rw [h]; rfl, insertOrIgnore_sublist _ _⟩ }
  | linkReservations old =>
    simp only [act]
    exact { Grows.refl l with
      linked := by
        intro h hsome
        exact h (by simpa using hsome)
      reservations := by
        intro table h
        refine ⟨_, by rw [h]; rfl, ?_⟩
        intro r' hr'
        obtain ⟨r, hr, rfl⟩ := Table.mem_updated.mp hr'
        refine ⟨r, hr, ?_⟩
        split
        · exact ⟨rfl, by intro h; cases h⟩
        · exact ⟨rfl, id⟩ }

/-- A row that a table refuses is refused by the table grown. -/
theorem CallKeys.refuses {xs ys : List ExternalCallRow} {row : ExternalCallRow} (h : xs.Sublist ys)
    (hno : ¬ CallKeys (xs ++ [row])) : ¬ CallKeys (ys ++ [row]) :=
  fun hyes => hno (hyes.sublist ((h.append_right [row]).map _))

theorem CallAttemptKeys.refuses {xs ys : List ExternalAttemptRow} {row : ExternalAttemptRow}
    (h : xs.Sublist ys) (hno : ¬ CallAttemptKeys (xs ++ [row])) : ¬ CallAttemptKeys (ys ++ [row]) := by
  intro hyes
  have hsub := h.append_right [row]
  exact hno ⟨hyes.1.sublist (hsub.map _), hyes.2.1.sublist (hsub.map _),
    hyes.2.2.sublist ((hsub.filter _).map _)⟩

theorem Grows.done {l m : Layout} (h : Grows l m) {x : Statement} (hx : Done ids x l) : Done ids x m := by
  cases x with
  | addAttemptId => exact h.linked hx
  | renameCalls => exact h.notV1 hx
  | addColumn column => exact h.columns column hx
  | createReservations =>
    obtain ⟨table, htable⟩ := Option.isSome_iff_exists.mp hx
    obtain ⟨table', htable', -⟩ := h.reservations table htable
    exact Option.isSome_iff_exists.mpr ⟨table', htable'⟩
  | createCalls =>
    obtain ⟨calls, old, hcalls⟩ := hx
    obtain ⟨calls', hcalls', -⟩ := h.calls calls old hcalls
    exact ⟨calls', old, hcalls'⟩
  | createAttempts =>
    obtain ⟨table, htable⟩ := Option.isSome_iff_exists.mp hx
    obtain ⟨table', htable', -⟩ := h.attempts table htable
    exact Option.isSome_iff_exists.mpr ⟨table', htable'⟩
  | createTransitions => exact h.transitions hx
  | copyCall old =>
    obtain ⟨calls, v1, hcalls, hno⟩ := hx
    obtain ⟨calls', hcalls', hsub⟩ := h.calls calls v1 hcalls
    exact ⟨calls', v1, hcalls', CallKeys.refuses hsub hno⟩
  | copyAttempt old =>
    obtain ⟨table, htable, hno⟩ := hx
    obtain ⟨table', htable', hsub⟩ := h.attempts table htable
    exact ⟨table', htable', CallAttemptKeys.refuses hsub hno⟩
  | linkReservations old =>
    obtain ⟨table, htable, hno⟩ := hx
    obtain ⟨table', htable', hrows⟩ := h.reservations table htable
    refine ⟨table', htable', ?_⟩
    intro r' hr'
    obtain ⟨r, hr, hcall, hattempt⟩ := hrows r' hr'
    have hr' := hno r hr
    simp only [unlinked, decide_eq_false_iff_not, not_and] at hr' ⊢
    intro hc ha
    exact hr' (hcall.trans hc) (hattempt ha)

theorem insertOrIgnore_refuses {ρ κ : Type} {schema : List ρ → Prop} [DecidablePred schema] (key : ρ → κ)
    (hkey : ∀ rows, schema rows → (rows.map key).Nodup) (table : Table schema) (row : ρ) :
    ¬ schema ((insertOrIgnore table row).rows ++ [row]) := by
  unfold insertOrIgnore
  split
  · intro h
    have hnodup := hkey _ h
    rw [List.map_append, List.nodup_append] at hnodup
    exact hnodup.2.2 (key row) (by simp) (key row) (by simp) rfl
  · assumption

theorem insertOrIgnore_of_refused {ρ : Type} {schema : List ρ → Prop} [DecidablePred schema]
    {table : Table schema} {row : ρ} (h : ¬ schema (table.rows ++ [row])) : insertOrIgnore table row = table :=
  dif_neg h

theorem statements_redoable : Redoable (act ids) Ready (Done ids) where
  after := by
    intro x l hready
    cases x with
    | addAttemptId =>
      intro hsome
      simp only [act] at hsome ⊢
      split
      · rfl
      · rename_i h
        rw [if_neg h] at hsome
        simpa [hsome] using h
    | renameCalls =>
      intro rows
      simp only [act]
      split
      · simp
      · rename_i h
        exact h rows
    | addColumn column =>
      intro hsome
      simp only [act] at hsome ⊢
      split
      · simp
      · rename_i h
        rw [if_neg h] at hsome
        simpa [hsome] using h
    | createReservations =>
      change (act ids .createReservations l).reservations.isSome
      simp only [act]
      split
      · rfl
      · rename_i h
        rw [h]
        rfl
    | createCalls =>
      change Split (act ids .createCalls l)
      simp only [act]
      split
      · exact ⟨_, _, rfl⟩
      · exact ⟨_, _, rfl⟩
      · rename_i habsent hrenamed
        cases hcalls : l.calls with
        | absent => exact absurd hcalls habsent
        | v1 rows => exact absurd hcalls (hready rows)
        | renamed old => exact absurd hcalls (hrenamed old)
        | split calls old => exact ⟨calls, old, hcalls⟩
    | createAttempts =>
      change (act ids .createAttempts l).attempts.isSome
      simp only [act]
      split
      · rfl
      · rename_i h
        rw [h]
        rfl
    | createTransitions =>
      change (act ids .createTransitions l).transitions.isSome
      simp only [act]
      split
      · rfl
      · rename_i h
        rw [h]
        rfl
    | copyCall old =>
      obtain ⟨calls, v1, hcalls⟩ := hready
      refine ⟨insertOrIgnore calls (copiedCall ids old), v1, ?_, ?_⟩
      · simp only [act, hcalls]
      · exact insertOrIgnore_refuses ExternalCallRow.callId (fun _ (h : CallKeys _) => h) calls _
    | copyAttempt old =>
      obtain ⟨table, htable⟩ := Option.isSome_iff_exists.mp hready
      refine ⟨insertOrIgnore table (copiedAttempt ids old), ?_, ?_⟩
      · simp only [act, htable, Option.map_some]
      · exact insertOrIgnore_refuses ExternalAttemptRow.attemptId (fun _ h => h.1) table _
    | linkReservations old =>
      obtain ⟨table, htable⟩ := Option.isSome_iff_exists.mp hready
      refine ⟨linkRows (copiedAttemptId ids old) (unlinked old) table, ?_, ?_⟩
      · simp only [act, htable, Option.map_some]
      · intro r hr
        obtain ⟨q, -, rfl⟩ := Table.mem_updated.mp hr
        split
        · simp [unlinked, linkedRow]
        · rename_i h
          simpa using h
  skip := by
    intro x l hdone
    cases x with
    | addAttemptId =>
      simp only [act]
      exact if_neg fun h => h.2 (hdone h.1)
    | renameCalls =>
      simp only [act]
      split
      · rename_i rows h
        exact absurd h (hdone rows)
      · rfl
    | addColumn column =>
      simp only [act]
      exact if_neg fun h => h.2 (hdone h.1)
    | createReservations =>
      obtain ⟨table, htable⟩ := Option.isSome_iff_exists.mp hdone
      simp only [act, htable]
    | createCalls =>
      obtain ⟨calls, old, hcalls⟩ := hdone
      simp only [act, hcalls]
    | createAttempts =>
      obtain ⟨table, htable⟩ := Option.isSome_iff_exists.mp hdone
      simp only [act, htable]
    | createTransitions =>
      obtain ⟨table, htable⟩ := Option.isSome_iff_exists.mp hdone
      simp only [act, htable]
    | copyCall old =>
      obtain ⟨calls, v1, hcalls, hno⟩ := hdone
      simp only [act, hcalls, insertOrIgnore_of_refused hno]
      rw [← hcalls]
    | copyAttempt old =>
      obtain ⟨table, htable, hno⟩ := hdone
      simp only [act, htable, Option.map_some, insertOrIgnore_of_refused hno]
      rw [← htable]
    | linkReservations old =>
      obtain ⟨table, htable, hno⟩ := hdone
      have hsame : linkRows (copiedAttemptId ids old) (unlinked old) table = table :=
        Table.ext_rows (Table.updated_eq_self hno)
      simp only [act, htable, Option.map_some, hsame]
      rw [← htable]
  keeps := fun _ y l h => (act_grows y l).done h

end Shapeflow.Migration

import Shapeflow.MigrationRedo
import Shapeflow.Run

set_option autoImplicit false

/-!
# A ledger that is opened until it is migrated

However often the processes that open it die, short of the one place between the
log and the version, the ledger ends as one uninterrupted opening would leave it.
-/
namespace Shapeflow.Migration
open Script Session Redo

/-- The statements that an opening executes before the log. -/
def statements (l : Layout) : List Statement :=
  schemaStatements ++ copyStatements (((pastTable l).map (·.rows)).getD [])

variable {ids : DerivedIds} {l m : Layout}

theorem Grows.trans {k : Layout} (h : Grows l k) (hk : Grows k m) : Grows l m where
  linked := fun hl => hk.linked (h.linked hl)
  notV1 := fun hl => hk.notV1 (h.notV1 hl)
  columns := fun column hl => hk.columns column (h.columns column hl)
  calls := by
    intro calls old hcalls
    obtain ⟨calls', hcalls', hsub⟩ := h.calls calls old hcalls
    obtain ⟨calls'', hcalls'', hsub'⟩ := hk.calls calls' old hcalls'
    exact ⟨calls'', hcalls'', hsub.trans hsub'⟩
  attempts := by
    intro table htable
    obtain ⟨table', htable', hsub⟩ := h.attempts table htable
    obtain ⟨table'', htable'', hsub'⟩ := hk.attempts table' htable'
    exact ⟨table'', htable'', hsub.trans hsub'⟩
  transitions := fun hl => hk.transitions (h.transitions hl)
  reservations := by
    intro table htable
    obtain ⟨table', htable', hrows⟩ := h.reservations table htable
    obtain ⟨table'', htable'', hrows'⟩ := hk.reservations table' htable'
    refine ⟨table'', htable'', ?_⟩
    intro r'' hr''
    obtain ⟨r', hr', hcall', hattempt'⟩ := hrows' r'' hr''
    obtain ⟨r, hr, hcall, hattempt⟩ := hrows r' hr'
    exact ⟨r, hr, hcall.trans hcall', fun h => hattempt (hattempt' h)⟩
  past := hk.past.trans h.past
  version := hk.version.trans h.version

theorem perform_grows (xs : List Statement) (l : Layout) : Grows l (perform (act ids) xs l) :=
  perform_induction (fun x _ _ h => h.trans (act_grows x _)) (.refl l)

theorem inTurn_schema (l : Layout) : InTurn (act ids) Ready l schemaStatements := by
  have hrenamed : NotV1 (act ids .renameCalls (act ids .addAttemptId l)) :=
    statements_redoable.after .renameCalls _ trivial
  have hlater := (@perform_grows ids [.addColumn .telemetryJson, .addColumn .proxyIngressAt,
    .addColumn .responseEndAt, .createReservations] _).notV1 hrenamed
  exact ⟨trivial, trivial, trivial, trivial, trivial, trivial, hlater, trivial, trivial, trivial⟩

/-- All the tables the copies write are there. -/
def Shaped (l : Layout) : Prop := Split l ∧ l.attempts.isSome ∧ l.reservations.isSome

theorem shaped_schema (l : Layout) : Shaped (perform (act ids) schemaStatements l) := by
  have hdone := statements_redoable.done_perform (@inTurn_schema ids l)
  exact ⟨hdone .createCalls (by simp [schemaStatements]), hdone .createAttempts (by simp [schemaStatements]),
    hdone .createReservations (by simp [schemaStatements])⟩

theorem inTurn_statements (l : Layout) : InTurn (act ids) Ready l (statements l) := by
  refine inTurn_append.mpr ⟨inTurn_schema l, ?_⟩
  apply inTurn_of_invariant (P := Shaped)
  · intro x hx k hk
    obtain ⟨old, -, hold⟩ := List.mem_flatMap.mp hx
    simp only [List.mem_cons, List.not_mem_nil, or_false] at hold
    rcases hold with rfl | rfl | rfl
    · exact hk.1
    · exact hk.2.1
    · exact hk.2.2
  · intro x _ k hk
    have hkeeps := (@statements_redoable ids).keeps
    exact ⟨hkeeps .createCalls x k hk.1, hkeeps .createAttempts x k hk.2.1,
      hkeeps .createReservations x k hk.2.2⟩
  · exact shaped_schema l

/-- After the schema script the rows of version 1 are in `external_calls_v1`. -/
theorem oldTable_schema (l : Layout) : (perform (act ids) schemaStatements l).oldTable = pastTable l := by
  obtain ⟨calls, old, hsplit⟩ := (@shaped_schema ids l).1
  have hpast := (@perform_grows ids schemaStatements l).past
  rw [← hpast]
  simp only [Layout.oldTable, pastTable, hsplit]

/-- What an opening makes of an earlier database when nothing interrupts it. -/
def migrated (ids : DerivedIds) (now : ℚ) (l : Layout) : Layout :=
  setVersion (if (pastTable l).isSome then logCopied now (perform (act ids) (statements l) l)
    else perform (act ids) (statements l) l)

/-- The process does not die between the log and the version. -/
def Uncut (l : Layout) (o : Opening) : Prop :=
  l.current = false → (pastTable l).isSome → o.life ≠ some ((statements l).length + 1)

instance (l : Layout) (o : Opening) : Decidable (Uncut l o) := inferInstanceAs (Decidable (_ → _ → _))

theorem current_of_version (h : m.version = l.version) : m.current = l.current := by
  unfold Layout.current
  rw [h]

theorem statements_of_past (h : pastTable m = pastTable l) : statements m = statements l := by
  unfold statements
  rw [h]

/-! ## One opening -/

theorem migrateAfterSchema_none (now : ℚ) (life : Option ℕ) (hearlier : m.current = false)
    (hold : m.oldTable = none) :
    migrateAfterSchema ids now ⟨m, life⟩ = tx (execute setVersion) ⟨m, life⟩ := by
  unfold migrateAfterSchema readStore
  simp only [bind_run, getStore_run, pure_run, hearlier, hold, Bool.false_eq_true, if_false]

theorem migrateAfterSchema_some (now : ℚ) (life : Option ℕ) (hearlier : m.current = false)
    {old : Table V1Keys} (hold : m.oldTable = some old) :
    migrateAfterSchema ids now ⟨m, life⟩ =
      (do performTx (act ids) (copyStatements old.rows)
          tx (execute (logCopied now))
          tx (execute setVersion) : Script (Session Layout) (Stopped Unit) Unit) ⟨m, life⟩ := by
  unfold migrateAfterSchema readStore
  simp only [bind_run, getStore_run, pure_run, hearlier, hold, Bool.false_eq_true, if_false]

theorem tx_execute (f : Layout → Layout) {life : Option ℕ} (hlife : life ≠ some 0) :
    tx (execute f) ⟨m, life⟩ = (.ok (), ⟨f m, life.map (· - 1)⟩) := by
  unfold tx
  rw [if_neg hlife]
  rfl

theorem tx_dead (f : Layout → Layout) : tx (execute f) ⟨m, some 0⟩ = (.error .died, ⟨m, some 0⟩) := rfl

/-- After the schema script: the copies, the log and the version, or the version alone. -/
theorem after_schema_none (now : ℚ) (life : Option ℕ) (hearlier : l.current = false)
    (hold : pastTable l = none) :
    (life.isSome ∧ ∃ n, ((migrateAfterSchema ids now).after ⟨perform (act ids) schemaStatements l, life⟩).store =
        perform (act ids) ((statements l).take n) l) ∨
      ((migrateAfterSchema ids now).after ⟨perform (act ids) schemaStatements l, life⟩).store =
        migrated ids now l := by
  have hcurrent : (perform (act ids) schemaStatements l).current = false :=
    (current_of_version (perform_grows schemaStatements l).version).trans hearlier
  have hnone : (perform (act ids) schemaStatements l).oldTable = none := (oldTable_schema l).trans hold
  have hall : statements l = schemaStatements := by
    unfold statements
    rw [hold]
    rfl
  unfold after
  rw [migrateAfterSchema_none now life hcurrent hnone]
  by_cases hdead : life = some 0
  · left
    refine ⟨by rw [hdead]; rfl, schemaStatements.length, ?_⟩
    rw [hdead, tx_dead, hall, List.take_length]
  · right
    rw [tx_execute setVersion hdead]
    unfold migrated
    rw [hold, hall]
    rfl

theorem after_schema_some (now : ℚ) (life : Option ℕ) (hearlier : l.current = false)
    {old : Table V1Keys} (hold : pastTable l = some old)
    (hcut : life ≠ some ((copyStatements old.rows).length + 1)) :
    (life.isSome ∧ ∃ n, ((migrateAfterSchema ids now).after ⟨perform (act ids) schemaStatements l, life⟩).store =
        perform (act ids) ((statements l).take n) l) ∨
      ((migrateAfterSchema ids now).after ⟨perform (act ids) schemaStatements l, life⟩).store =
        migrated ids now l := by
  have hcurrent : (perform (act ids) schemaStatements l).current = false :=
    (current_of_version (perform_grows schemaStatements l).version).trans hearlier
  have hsome : (perform (act ids) schemaStatements l).oldTable = some old := (oldTable_schema l).trans hold
  have hall : statements l = schemaStatements ++ copyStatements old.rows := by
    unfold statements
    rw [hold]
    rfl
  have hstart : ∀ n, perform (act ids) ((statements l).take (schemaStatements.length + n)) l =
      perform (act ids) ((copyStatements old.rows).take n) (perform (act ids) schemaStatements l) := by
    intro n
    rw [hall, List.take_length_add_append, perform_append]
  have hwhole : perform (act ids) (statements l) l =
      perform (act ids) (copyStatements old.rows) (perform (act ids) schemaStatements l) := by
    rw [hall, perform_append]
  unfold after
  rw [migrateAfterSchema_some now life hcurrent hsome]
  rcases performTx_cases (ε := Unit) (act ids) (copyStatements old.rows)
    (perform (act ids) schemaStatements l) life with ⟨n, -, hmortal, hdies⟩ | ⟨hlives, hlife⟩
  · left
    refine ⟨by rw [hmortal]; rfl, schemaStatements.length + n, ?_⟩
    rw [bind_of_error hdies]
    exact (hstart n).symm
  · rw [bind_of_ok hlives]
    by_cases hdead : life = some (copyStatements old.rows).length
    · -- the process dies at the log
      left
      refine ⟨by rw [hdead]; rfl, (statements l).length, ?_⟩
      rw [List.take_length, hwhole, hdead, Option.map_some, Nat.sub_self, bind_of_error (tx_dead _)]
    · right
      have hlog : life.map (· - (copyStatements old.rows).length) ≠ some 0 := by
        intro h
        obtain ⟨k, hk, hzero⟩ := Option.map_eq_some_iff.mp h
        have hle := hlife k hk
        apply hdead
        rw [hk]
        congr 1
        omega
      have hversion : (life.map (· - (copyStatements old.rows).length)).map (· - 1) ≠ some 0 := by
        intro h
        obtain ⟨j, hj, hzero⟩ := Option.map_eq_some_iff.mp h
        obtain ⟨k, hk, hdiff⟩ := Option.map_eq_some_iff.mp hj
        have hle := hlife k hk
        have hne : k ≠ (copyStatements old.rows).length := by
          intro heq
          exact hdead (hk.trans (congrArg some heq))
        apply hcut
        rw [hk]
        congr 1
        omega
      rw [bind_of_ok (tx_execute _ hlog), tx_execute setVersion hversion]
      unfold migrated
      rw [hold, hwhole]
      rfl

/-- An opening of an earlier database migrates it or leaves some of the statements done. -/
theorem reopen_earlier {o : Opening} (hearlier : l.current = false) (huncut : Uncut l o) :
    (o.life.isSome ∧ ∃ n, reopen ids l o = perform (act ids) ((statements l).take n) l) ∨
      reopen ids l o = migrated ids o.now l := by
  unfold reopen openLedger
  rcases performTx_cases (ε := Unit) (act ids) schemaStatements l o.life with
    ⟨n, hn, hmortal, hdies⟩ | ⟨hlives, hlife⟩
  · left
    refine ⟨by rw [hmortal]; rfl, n, ?_⟩
    have htake : (statements l).take n = schemaStatements.take n := List.take_append_of_le_length (by omega)
    rw [after_of_error (bind_of_error hdies), htake]
  · rw [after_bind_of_ok hlives, ← Option.isSome_map (f := (· - schemaStatements.length))]
    cases hold : pastTable l with
    | none => exact after_schema_none o.now _ hearlier hold
    | some old =>
      apply after_schema_some o.now _ hearlier hold
      intro h
      obtain ⟨k, hk, hdiff⟩ := Option.map_eq_some_iff.mp h
      have hle := hlife k hk
      apply huncut hearlier (by rw [hold]; rfl)
      have hlength : (statements l).length = schemaStatements.length + (copyStatements old.rows).length := by
        unfold statements
        rw [hold, List.length_append]
        rfl
      rw [hk, hlength]
      congr 1
      omega

/-! ## A ledger that is open -/

/-- The version is written, and the schema script finds everything in place. -/
def Finished (ids : DerivedIds) (l : Layout) : Prop :=
  l.current = true ∧ ∀ x ∈ schemaStatements, Done ids x l

theorem reopen_finished (h : Finished ids l) (o : Opening) : reopen ids l o = l := by
  have hkept : ∀ n, perform (act ids) (schemaStatements.take n) l = l := by
    intro n
    apply statements_redoable.skip_perform
    exact fun x hx => h.2 x (List.mem_of_mem_take hx)
  unfold reopen openLedger
  rcases performTx_cases (ε := Unit) (act ids) schemaStatements l o.life with
    ⟨n, -, -, hdies⟩ | ⟨hlives, -⟩
  · rw [after_of_error (bind_of_error hdies)]
    exact hkept n
  · have hsame : perform (act ids) schemaStatements l = l := statements_redoable.skip_perform h.2
    rw [after_bind_of_ok hlives, hsame]
    unfold migrateAfterSchema readStore after
    simp only [bind_run, getStore_run, pure_run, h.1, if_true]

theorem done_logCopied (now : ℚ) {x : Statement} (hx : Done ids x l) : Done ids x (logCopied now l) :=
by
  have hgrows : Grows l (logCopied now l) :=
    ⟨id, id, fun _ => id, fun calls _ h => ⟨calls, h, .refl _⟩, fun table h => ⟨table, h, .refl _⟩, fun _ => rfl,
      fun table h => ⟨table, h, fun r hr => ⟨r, hr, rfl, id⟩⟩, rfl, rfl⟩
  exact hgrows.done hx

theorem done_setVersion {x : Statement} (hx : Done ids x l) : Done ids x (setVersion l) := by
  cases x <;> exact hx

theorem migrated_finished (now : ℚ) (l : Layout) : Finished ids (migrated ids now l) := by
  refine ⟨rfl, ?_⟩
  intro x hx
  have hdone : Done ids x (perform (act ids) (statements l) l) :=
    statements_redoable.done_perform (inTurn_statements l) x (List.mem_append_left _ hx)
  apply done_setVersion
  split
  · exact done_logCopied now hdone
  · exact hdone

/-! ## All the openings of a ledger -/

/-- Some statements are done, or all of them with the log and the version. -/
def Reached (ids : DerivedIds) (times : List ℚ) (l m : Layout) : Prop :=
  (∃ n, m = perform (act ids) ((statements l).take n) l) ∨ ∃ now ∈ times, m = migrated ids now l

theorem past_perform (n : ℕ) (l : Layout) :
    pastTable (perform (act ids) ((statements l).take n) l) = pastTable l :=
  (perform_grows _ l).past

/-- Statements that are done change nothing of what an opening makes. -/
theorem migrated_perform (now : ℚ) (n : ℕ) (l : Layout) :
    migrated ids now (perform (act ids) ((statements l).take n) l) = migrated ids now l := by
  have hredo := statements_redoable.redo_prefix (@inTurn_statements ids l) n (statements l).length
  have hall : (statements l).take (max n (statements l).length) = statements l :=
    List.take_of_length_le (Nat.le_max_right ..)
  rw [hall, List.take_length] at hredo
  unfold migrated
  rw [past_perform, statements_of_past (past_perform n l), hredo]

theorem reached_reopen {times : List ℚ} (hearlier : l.current = false) (h : Reached ids times l m) {o : Opening}
    (hnow : o.now ∈ times) (huncut : Uncut m o) : Reached ids times l (reopen ids m o) := by
  rcases h with ⟨n, rfl⟩ | ⟨now, hmem, rfl⟩
  · have hstill : (perform (act ids) ((statements l).take n) l).current = false :=
      (current_of_version (perform_grows _ l).version).trans hearlier
    rcases reopen_earlier hstill huncut with ⟨-, k, hk⟩ | hk
    · left
      rw [statements_of_past (past_perform n l),
        statements_redoable.redo_prefix (inTurn_statements l)] at hk
      exact ⟨max n k, hk⟩
    · right
      exact ⟨o.now, hnow, hk.trans (migrated_perform o.now n l)⟩
  · right
    exact ⟨now, hmem, reopen_finished (migrated_finished now l) o⟩

theorem reached_run {times : List ℚ} (hearlier : l.current = false) {openings : List Opening}
    (htimes : ∀ o ∈ openings, o.now ∈ times) (hm : Reached ids times l m)
    (huncut : Run.Allowed (reopen ids) Uncut m openings) :
    Reached ids times l (Run.run (reopen ids) m openings) := by
  induction openings generalizing m with
  | nil => exact hm
  | cons o openings ih =>
    obtain ⟨hnow, hrest⟩ := List.forall_mem_cons.mp htimes
    exact ih hrest (reached_reopen hearlier hm hnow huncut.1) huncut.2

theorem openOnce_earlier (now : ℚ) (hearlier : l.current = false) : openOnce ids now l = migrated ids now l := by
  rcases reopen_earlier (o := ⟨now, none⟩) hearlier (fun _ _ h => nomatch h) with ⟨hmortal, -⟩ | hmigrated
  · simp at hmortal
  · exact hmigrated

/-! ## What the migration adds -/

/-- Only the copies add attempts, and no statement before the log adds a transition. -/
theorem act_rows (x : Statement) (k : Layout) :
    (attemptRows (act ids x k) = attemptRows k ∨
      ∃ old, x = .copyAttempt old ∧ attemptRows (act ids x k) = attemptRows k ++ [copiedAttempt ids old]) ∧
    transitionRows (act ids x k) = transitionRows k := by
  cases x with
  | addAttemptId | addColumn column =>
    simp only [act]
    split <;> exact ⟨.inl rfl, rfl⟩
  | renameCalls | createReservations | createCalls | copyCall old =>
    simp only [act]
    split <;> exact ⟨.inl rfl, rfl⟩
  | createAttempts =>
    simp only [act]
    split
    · rename_i hnone
      exact ⟨.inl (by simp only [attemptRows, hnone]; rfl), rfl⟩
    · exact ⟨.inl rfl, rfl⟩
  | createTransitions =>
    simp only [act]
    split
    · rename_i hnone
      exact ⟨.inl rfl, by simp only [transitionRows, hnone]; rfl⟩
    · exact ⟨.inl rfl, rfl⟩
  | copyAttempt old =>
    refine ⟨?_, rfl⟩
    cases htable : k.attempts with
    | none =>
      left
      simp only [act, attemptRows, htable, Option.map_none]
    | some table =>
      simp only [act, attemptRows, htable, Option.map_some, Option.getD_some, insertOrIgnore]
      split
      · exact .inr ⟨old, rfl, rfl⟩
      · exact .inl rfl
  | linkReservations old => exact ⟨.inl rfl, rfl⟩

def pastRows (l : Layout) : List V1Call := ((pastTable l).map (·.rows)).getD []

/-- The attempts that the copies added, each made of a row of version 1. -/
def Copied (ids : DerivedIds) (l : Layout) (copied : List ExternalAttemptRow) : Prop :=
  ∀ a ∈ copied, ∃ old ∈ pastRows l, a = copiedAttempt ids old

/-- Attempts were copied, and nothing is logged yet. -/
def Unlogged (ids : DerivedIds) (l m : Layout) : Prop :=
  (∃ copied, Copied ids l copied ∧ attemptRows m = attemptRows l ++ copied) ∧
    transitionRows m = transitionRows l

theorem perform_rows (l : Layout) : Unlogged ids l (perform (act ids) (statements l) l) := by
  apply perform_induction (P := Unlogged ids l)
  · intro x hx k hk
    obtain ⟨⟨copied, hcopied, hattempts⟩, htransitions⟩ := hk
    obtain ⟨hrows, hlog⟩ := @act_rows ids x k
    refine ⟨?_, hlog.trans htransitions⟩
    rcases hrows with hsame | ⟨old, rfl, hadded⟩
    · exact ⟨copied, hcopied, hsame.trans hattempts⟩
    · have hold : old ∈ pastRows l := by
        simpa [statements, schemaStatements, copyStatements, pastRows] using hx
      refine ⟨copied ++ [copiedAttempt ids old], ?_, ?_⟩
      · intro a ha
        rcases List.mem_append.mp ha with hmem | hlast
        · exact hcopied a hmem
        · exact ⟨old, hold, by simpa using hlast⟩
      · rw [hadded, hattempts, List.append_assoc]
  · exact ⟨⟨[], by simp [Copied], by simp⟩, rfl⟩

/-- A database that still has the table of version 1 has no attempts yet. -/
def FirstCopy (l : Layout) : Prop := (pastTable l).isSome → attemptRows l = []

instance (l : Layout) : Decidable (FirstCopy l) := inferInstanceAs (Decidable (_ → _))

/-- Rows were copied, and each of them was logged once. -/
def MigratedOnce (ids : DerivedIds) (l m : Layout) : Prop :=
  ∃ copied now, Copied ids l copied ∧ attemptRows m = attemptRows l ++ copied ∧
    transitionRows m = transitionRows l ++ copied.map (migrationRow now)

theorem migrated_once (now : ℚ) (hfirst : FirstCopy l) : MigratedOnce ids l (migrated ids now l) := by
  obtain ⟨⟨copied, hcopied, hattempts⟩, htransitions⟩ := @perform_rows ids l
  refine ⟨copied, now, hcopied, ?_⟩
  unfold migrated
  cases hpast : pastTable l with
  | none =>
    have hnone : copied = [] := by
      apply List.eq_nil_iff_forall_not_mem.mpr
      intro a ha
      obtain ⟨old, hold, -⟩ := hcopied a ha
      simp [pastRows, hpast] at hold
    subst hnone
    exact ⟨hattempts, htransitions.trans (by simp)⟩
  | some old =>
    have hempty : attemptRows l = [] := hfirst (by rw [hpast]; rfl)
    refine ⟨hattempts, ?_⟩
    have hlogged : transitionRows (setVersion (logCopied now (perform (act ids) (statements l) l))) =
        transitionRows (perform (act ids) (statements l) l) ++
          (attemptRows (perform (act ids) (statements l) l)).map (migrationRow now) := rfl
    simp only [Option.isSome_some, if_true]
    rw [hlogged, htransitions, hattempts, hempty, List.nil_append]

/-! ## The migration -/

/-- Openings that die anywhere but between the log and the version migrate a database of an earlier
    schema as one uninterrupted opening does, log each copied attempt once, and leave a ledger that
    no later opening changes, whatever was written to its tables meanwhile. -/
theorem migration_idempotent (ids : DerivedIds) {l : Layout} (hearlier : l.current = false)
    {openings : List Opening} (huncut : Run.Allowed (reopen ids) Uncut l openings) (now : ℚ) :
    (∃ first ∈ openings.map (·.now) ++ [now],
      openOnce ids now (Run.run (reopen ids) l openings) = openOnce ids first l) ∧
    (FirstCopy l → MigratedOnce ids l (openOnce ids now (Run.run (reopen ids) l openings))) ∧
    Finished ids (openOnce ids now (Run.run (reopen ids) l openings)) ∧
    ∀ later, Finished ids later → ∀ reopenings, Run.run (reopen ids) later reopenings = later := by
  have hreached : Reached ids (openings.map (·.now) ++ [now]) l (Run.run (reopen ids) l openings) := by
    apply reached_run hearlier _ (.inl ⟨0, rfl⟩) huncut
    exact fun o ho => List.mem_append_left _ (List.mem_map_of_mem ho)
  have hlast : ∃ first ∈ openings.map (·.now) ++ [now],
      openOnce ids now (Run.run (reopen ids) l openings) = migrated ids first l := by
    rcases hreached with ⟨n, hsome⟩ | ⟨first, hfirst, hmigrated⟩
    · have hstill : (Run.run (reopen ids) l openings).current = false := by
        rw [hsome]
        exact (current_of_version (perform_grows _ l).version).trans hearlier
      refine ⟨now, by simp, ?_⟩
      rw [openOnce_earlier now hstill, hsome, migrated_perform]
    · refine ⟨first, hfirst, ?_⟩
      rw [hmigrated]
      exact reopen_finished (migrated_finished first l) _
  obtain ⟨first, hfirst, hopened⟩ := hlast
  rw [hopened]
  refine ⟨⟨first, hfirst, (openOnce_earlier first hearlier).symm⟩, migrated_once first,
    migrated_finished first l, ?_⟩
  intro later hlater reopenings
  have hstep : ∀ m o, m = later → reopen ids m o = later := by
    intro m o hm
    rw [hm]
    exact reopen_finished hlater o
  exact Run.invariant_all hstep reopenings rfl

def committedCall : V1Call where
  callId := "call"
  provider := "tavily"
  opClass := "search"
  workKey := some "task"
  state := .committed
  attemptOrdinal := some 0
  requestObjectRef := some "request"
  responseObjectRef := some "response"
  providerRequestId := none
  model := none
  usageJson := none
  errorClass := none
  createdAt := 0
  updatedAt := 0

/-- A ledger of version 1 with one call in it. -/
def ledgerV1 : Layout where
  reservations := some ⟨[], List.nodup_nil⟩
  linked := false
  calls := .v1 ⟨[committedCall], by decide⟩
  attempts := none
  columns := []
  transitions := none
  version := none

def laterAttempt : ExternalAttemptRow where
  attemptId := "later"
  callId := "next"
  attemptOrdinal := 0
  state := .committed
  requestObjectRef := none
  responseObjectRef := none
  providerRequestId := none
  returnedModel := none
  usageJson := none
  errorClass := none
  openedAt := 1
  dispatchedAt := some 1
  settledAt := some 1

def laterCall : ExternalCallRow :=
  { copiedCall .plain committedCall with callId := "next", callKey := "key", committedAttemptId := some "later" }

/-- The ledger that version 2 made of it, with one more call. -/
def ledgerV2 : Layout where
  reservations := some ⟨[], List.nodup_nil⟩
  linked := true
  calls := .split ⟨[copiedCall .plain committedCall, laterCall], by decide⟩ (some ⟨[committedCall], by decide⟩)
  attempts := some ⟨[copiedAttempt .plain committedCall, laterAttempt], by decide +kernel⟩
  columns := []
  transitions := some ⟨[migrationRow 1 (copiedAttempt .plain committedCall)], trivial⟩
  version := some 2

theorem migration_idempotent_twoDeaths :
    MigratedOnce .plain ledgerV1
      (openOnce .plain 3 (Run.run (reopen .plain) ledgerV1 [⟨1, some 4⟩, ⟨2, some 12⟩])) :=
  (migration_idempotent .plain (by decide) (by decide +kernel) 3).2.1 (by decide)

/-- A process that dies after the log and before the version leaves a ledger that logs again; a
    ledger of version 2 logs its copied attempt again, and the attempt it made itself. -/
theorem cut_migration_logs_twice :
    (attemptRows (openOnce .plain 2 (reopen .plain ledgerV1 ⟨1, some 13⟩))).length = 1 ∧
    (transitionRows (openOnce .plain 2 (reopen .plain ledgerV1 ⟨1, some 13⟩))).length = 2 ∧
    (transitionRows (openOnce .plain 2 ledgerV1)).length = 1 ∧
    (transitionRows (openOnce .plain 2 ledgerV2)).map (·.attemptId) =
      [some (copiedAttemptId .plain committedCall), some (copiedAttemptId .plain committedCall),
        some "later"] := by
  decide +kernel

end Shapeflow.Migration

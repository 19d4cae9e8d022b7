/-
# How far a default reaches

The steps of a session nest: a block runs steps under a default of its own, and a thread runs them
from the standard policy.  Which default holds where can be told without running anything
(`stepAt?`): only the steps of the same level count, and of those the last one that installs a
policy.  A block or a thread as a whole installs nothing, and what is given where a policy belongs
and is none installs nothing either.

A session is also run by a machine that has no notion of levels (`Machine.advance`): it has one
variable for the default, which is written to on entering a block, and what the variable held before
is kept until the block is left.  The machine comes to rest with the default and the reports of the
session, and at each step on the way its variable holds the default that was told
(`Machine.reaches_at`, `Machine.rests_iff`).

All of it is gathered in one structure, `Scoped`, which every session satisfies (`run_scoped`).
Its fields say what a caller relies on: which default holds at a place, that a step which looks at
the default or replaces it reports it by name, that a block restores what it found, that a thread
begins afresh, and that sanitizing without a policy goes by the default of the place.  A failing
step is caught where it fails, and what comes after it is run.
-/
import Mathlib.Logic.Relation
import SafeMarkup.Proofs.LastWord
import SafeMarkup.Session

namespace SafeMarkup

namespace Session

/-! ## Which default holds where -/

/-- The policy that the step makes the default for the steps after it. -/
def installs : Step → Option Named
  | .set (.policy named) => some named
  | .reset => some initial
  | _ => none

/-- Steps that run within a step, and the default that they start from. -/
structure Block where
  start : Named
  raises : Bool
  steps : List Step

/-- What runs within the step.  Where a policy is missing, nothing does. -/
def block? : Step → Option Block
  | .within (.policy named) raises steps => some ⟨named, raises, steps⟩
  | .thread steps => some ⟨initial, false, steps⟩
  | _ => none

/-- The default after some steps, by the last of them that installs one. -/
def defaultAfter (start : Named) (steps : List Step) : Named :=
  (lastWord installs steps).getD start

/-- The step at a place, and the default that holds before it.  A place is given from the outside to
the inside, by the number of steps before it on each level. -/
def stepAt? (start : Named) (steps : List Step) : List Nat → Option (Named × Step)
  | [] => none
  | [i] => steps[i]?.map fun s => (defaultAfter start (steps.take i), s)
  | i :: path => (steps[i]?.bind block?).bind fun block => stepAt? block.start block.steps path

/-- The reports of the steps within a step. -/
def Report.inner : Report → List Report
  | .ran _ _ reports => reports
  | _ => []

/-- The report at a place. -/
def reportAt? (reports : List Report) : List Nat → Option Report
  | [] => none
  | [i] => reports[i]?
  | i :: path => reports[i]?.bind fun report => reportAt? report.inner path

/-- What came of sanitizing, if the report is one of that. -/
def Report.outcome? : Report → Option (Except Fault Node)
  | .sanitized _ node => some (.ok node)
  | .failed fault => some (.error fault)
  | _ => none

/-- The name of the default in the report; one of a failure has none. -/
def Report.current? : Report → Option (Option String)
  | .done current | .sanitized current _ | .ran current _ _ => some current
  | .failed _ => none

/-! ## Runs -/

variable {start current : Named} {s : Step} {steps : List Step} {block : Block}

theorem installs_eq_none (notSet : ∀ named, s ≠ .set (.policy named)) (notReset : s ≠ .reset) :
    installs s = none := by
  cases s with
  | set given =>
    cases given with
    | policy named => exact absurd rfl (notSet named)
    | value other => rfl
  | reset => exact absurd rfl notReset
  | _ => rfl

theorem step_fst (current : Named) (s : Step) :
    (step current s).1 = (installs s).getD current := by
  cases s with
  | set given | within given raises steps => cases given <;> rfl
  | sanitizeWith given value =>
    rw [step]
    cases sanitizeBy current given value <;> rfl
  | _ => rfl

theorem step_of_block (h : block? s = some block) :
    step current s =
      (current, .ran current.name block.raises (run block.start block.steps).2) := by
  cases s with
  | within given raises steps =>
    cases given with
    | policy named =>
      cases h
      rfl
    | value other => cases h
  | thread steps =>
    cases h
    rfl
  | _ => cases h

theorem inner_of_not_block (h : block? s = none) : (step current s).2.inner = [] := by
  cases s with
  | set given => cases given <;> rfl
  | sanitizeWith given value =>
    rw [step]
    cases sanitizeBy current given value <;> rfl
  | within given raises steps =>
    cases given with
    | policy named => cases h
    | value other => rfl
  | thread steps => cases h
  | _ => rfl

theorem run_cons (current : Named) (s : Step) (steps : List Step) :
    run current (s :: steps) =
      ((run (step current s).1 steps).1, (step current s).2 :: (run (step current s).1 steps).2) :=
  rfl

theorem defaultAfter_cons (current : Named) (s : Step) (steps : List Step) :
    defaultAfter current (s :: steps) = defaultAfter (step current s).1 steps := by
  rw [defaultAfter, defaultAfter, ← foldl_lastWord, ← foldl_lastWord, List.foldl_cons, step_fst]

theorem run_fst (start : Named) (steps : List Step) :
    (run start steps).1 = defaultAfter start steps := by
  induction steps generalizing start with
  | nil => rfl
  | cons s rest ih => rw [run_cons, defaultAfter_cons, ih]

theorem run_snd_getElem? (start : Named) (steps : List Step) (i : Nat) :
    (run start steps).2[i]? =
      steps[i]?.map fun s => (step (defaultAfter start (steps.take i)) s).2 := by
  induction steps generalizing start i with
  | nil => rfl
  | cons s rest ih =>
    rw [run_cons]
    cases i with
    | zero => rfl
    | succ i =>
      rw [List.getElem?_cons_succ, List.getElem?_cons_succ, List.take_succ_cons, ih,
        defaultAfter_cons]

theorem reportAt?_nil (path : List Nat) : reportAt? [] path = none := by
  match path with
  | [] => rfl
  | [_] => rfl
  | _ :: _ :: _ => rfl

/-- The report at each place is that of the step there, under the default there. -/
theorem reportAt?_run (start : Named) (steps : List Step) (path : List Nat) :
    reportAt? (run start steps).2 path =
      (stepAt? start steps path).map fun found => (step found.1 found.2).2 := by
  induction path generalizing start steps with
  | nil => rfl
  | cons i path ih =>
    cases path with
    | nil =>
      show (run start steps).2[i]? = _
      rw [run_snd_getElem?]
      show _ = Option.map _ (Option.map _ _)
      rw [Option.map_map]
      rfl
    | cons j path =>
      rw [reportAt?, stepAt?, run_snd_getElem?]
      · cases steps[i]? with
        | none => rfl
        | some s =>
          rw [Option.map_some, Option.bind_some, Option.bind_some]
          cases inside : block? s with
          | none =>
            rw [inner_of_not_block inside, reportAt?_nil]
            rfl
          | some block =>
            rw [step_of_block inside]
            exact ih block.start block.steps
      · intro h
        cases h
      · intro h
        cases h

/-! ## Places within blocks -/

theorem stepAt?_cons (start : Named) (steps : List Step) (i : Nat) {path : List Nat}
    (more : path ≠ []) :
    stepAt? start steps (i :: path) =
      (steps[i]?.bind block?).bind fun block => stepAt? block.start block.steps path := by
  cases path with
  | nil => exact absurd rfl more
  | cons j path => rfl

/-- What holds within a step depends on the block that it is alone. -/
theorem stepAt?_append {path more : List Nat} (inside : more ≠ [])
    (h : stepAt? start steps path = some (current, s)) :
    stepAt? start steps (path ++ more) =
      (block? s).bind fun block => stepAt? block.start block.steps more := by
  induction path generalizing start steps with
  | nil => cases h
  | cons i path ih =>
    cases path with
    | nil =>
      obtain ⟨_, found, same⟩ := Option.map_eq_some_iff.1 h
      cases same
      rw [List.singleton_append, stepAt?_cons start steps i inside, found, Option.bind_some]
    | cons j path =>
      rw [stepAt?_cons start steps i (List.cons_ne_nil j path)] at h
      obtain ⟨block, entered, h⟩ := Option.bind_eq_some_iff.1 h
      have deeper : j :: path ++ more ≠ [] := List.cons_ne_nil j (path ++ more)
      rw [List.cons_append, stepAt?_cons start steps i deeper, entered, Option.bind_some]
      exact ih h

theorem stepAt?_succ {path : List Nat} {i : Nat} {next : Named} {s' : Step}
    (h : stepAt? start steps (path ++ [i]) = some (current, s))
    (h' : stepAt? start steps (path ++ [i + 1]) = some (next, s')) :
    next = (installs s).getD current := by
  induction path generalizing start steps with
  | nil =>
    obtain ⟨_, found, same⟩ := Option.map_eq_some_iff.1 h
    cases same
    obtain ⟨_, -, same⟩ := Option.map_eq_some_iff.1 h'
    cases same
    rw [List.take_add_one, found, defaultAfter, Option.toList_some, lastWord_concat, defaultAfter]
    cases installs s <;> rfl
  | cons j path ih =>
    have deeper (k : Nat) : path ++ [k] ≠ [] := List.append_ne_nil_of_right_ne_nil path (by simp)
    rw [List.cons_append, stepAt?_cons start steps j (deeper _)] at h h'
    obtain ⟨block, entered, h⟩ := Option.bind_eq_some_iff.1 h
    rw [entered, Option.bind_some] at h'
    exact ih h h'

/-! ## The machine with one variable -/

/-- A block or a thread that was entered: what the variable held before, and what is left to do
around it. -/
structure Frame where
  saved : Named
  raises : Bool
  reports : List Report
  steps : List Step

/-- A session as it is run: the variable for the default, the steps that come next, the reports of
the steps before them on the same level, and the blocks and threads around, the innermost first. -/
structure Machine where
  current : Named
  steps : List Step
  reports : List Report
  outer : List Frame

namespace Machine

/-- One move of the machine.  A block or a thread is entered, and what the variable held is kept; a
step without others in it is done at once; and when no steps are left, the block is left, and the
variable holds again what was kept. -/
def advance (m : Machine) : Option Machine :=
  match m.steps, m.outer with
  | s :: rest, outer =>
    match block? s with
    | some block =>
      some ⟨block.start, block.steps, [], ⟨m.current, block.raises, m.reports, rest⟩ :: outer⟩
    | none =>
      let (current, report) := step m.current s
      some ⟨current, rest, m.reports ++ [report], outer⟩
  | [], frame :: outer =>
    let report := Report.ran frame.saved.name frame.raises m.reports
    some ⟨frame.saved, frame.steps, frame.reports ++ [report], outer⟩
  | [], [] => none

/-- The machine gets from one state to the other by some moves. -/
def Reaches : Machine → Machine → Prop :=
  Relation.ReflTransGen fun m m' => m.advance = some m'

/-- The machine before a session. -/
def ready (start : Named) (steps : List Step) : Machine :=
  ⟨start, steps, [], []⟩

/-- The machine after a session. -/
def finished (start : Named) (steps : List Step) : Machine :=
  ⟨(run start steps).1, [], (run start steps).2, []⟩

variable {reports : List Report} {outer : List Frame} {rest : List Step}

theorem reaches_of_not_block (inside : block? s = none) :
    Reaches ⟨current, s :: rest, reports, outer⟩
      ⟨(step current s).1, rest, reports ++ [(step current s).2], outer⟩ := by
  refine .single ?_
  simp only [advance, inside]

theorem reaches_of_block (inside : block? s = some block)
    (ran : ∀ outer, Reaches ⟨block.start, block.steps ++ [], [], outer⟩
      ⟨(run block.start block.steps).1, [], [] ++ (run block.start block.steps).2, outer⟩) :
    Reaches ⟨current, s :: rest, reports, outer⟩
      ⟨(step current s).1, rest, reports ++ [(step current s).2], outer⟩ := by
  let frame : Frame := ⟨current, block.raises, reports, rest⟩
  have entered : advance ⟨current, s :: rest, reports, outer⟩ =
      some ⟨block.start, block.steps ++ [], [], frame :: outer⟩ := by
    simp only [advance, inside, List.append_nil, frame]
  refine .head entered ((ran _).tail ?_)
  rw [step_of_block inside]
  rfl

mutual

theorem reaches_step (s : Step) (current : Named) (rest : List Step) (reports : List Report)
    (outer : List Frame) :
    Reaches ⟨current, s :: rest, reports, outer⟩
      ⟨(step current s).1, rest, reports ++ [(step current s).2], outer⟩ := by
  cases s with
  | within given raises steps =>
    cases given with
    | policy named => exact reaches_of_block rfl (reaches_run steps named [] [])
    | value other => exact reaches_of_not_block rfl
  | thread steps => exact reaches_of_block rfl (reaches_run steps initial [] [])
  | set given => cases given <;> exact reaches_of_not_block rfl
  | _ => exact reaches_of_not_block rfl
termination_by structural s

/-- The machine runs steps as the session does. -/
theorem reaches_run (steps : List Step) (start : Named) (rest : List Step) (reports : List Report)
    (outer : List Frame) :
    Reaches ⟨start, steps ++ rest, reports, outer⟩
      ⟨(run start steps).1, rest, reports ++ (run start steps).2, outer⟩ := by
  cases steps with
  | nil =>
    rw [run, List.append_nil]
    exact .refl
  | cons s steps =>
    have first := reaches_step s start (steps ++ rest) reports outer
    have later := reaches_run steps (step start s).1 rest (reports ++ [(step start s).2]) outer
    rw [run_cons]
    rw [List.append_assoc, List.singleton_append] at later
    exact first.trans later
termination_by structural steps

end

theorem reaches_level (start : Named) {i : Nat} (found : steps[i]? = some s)
    (reports : List Report) (outer : List Frame) :
    Reaches ⟨start, steps, reports, outer⟩
      ⟨defaultAfter start (steps.take i), s :: steps.drop (i + 1),
        reports ++ (run start (steps.take i)).2, outer⟩ := by
  obtain ⟨bound, rfl⟩ := List.getElem?_eq_some_iff.1 found
  have before := reaches_run (steps.take i) start (steps.drop i) reports outer
  rwa [List.take_append_drop, List.drop_eq_getElem_cons bound, run_fst] at before

/-- The machine comes to each step, with the default of that place in its variable. -/
theorem reaches_at {path : List Nat} (h : stepAt? start steps path = some (current, s))
    (reports : List Report) (outer : List Frame) :
    ∃ rest reports' outer', Reaches ⟨start, steps, reports, outer⟩
      ⟨current, s :: rest, reports', outer'⟩ := by
  induction path generalizing start steps reports outer with
  | nil => cases h
  | cons i path ih =>
    cases path with
    | nil =>
      obtain ⟨_, found, same⟩ := Option.map_eq_some_iff.1 h
      cases same
      exact ⟨_, _, _, reaches_level start found reports outer⟩
    | cons j path =>
      rw [stepAt?_cons start steps i (List.cons_ne_nil j path)] at h
      obtain ⟨block, entered, h⟩ := Option.bind_eq_some_iff.1 h
      obtain ⟨around, found, inside⟩ := Option.bind_eq_some_iff.1 entered
      -- Up to the block on this level, then into it, and on from there on the next level.
      have before := reaches_level start found reports outer
      obtain ⟨rest, reports', outer', within⟩ := ih h [] (⟨defaultAfter start (steps.take i),
        block.raises, reports ++ (run start (steps.take i)).2, steps.drop (i + 1)⟩ :: outer)
      exact ⟨rest, reports', outer', before.trans (.head (by simp only [advance, inside]) within)⟩

/-- The machine comes to rest with what the session comes to, and in no other state. -/
theorem rests_iff {m : Machine} :
    Reaches (ready start steps) m ∧ m.advance = none ↔ m = finished start steps := by
  have reached : Reaches (ready start steps) (finished start steps) := by
    have ran := reaches_run steps start [] [] []
    rwa [List.append_nil, List.nil_append] at ran
  constructor
  · rintro ⟨reachedToo, stuck⟩
    have deterministic : Relator.RightUnique fun m m' : Machine => m.advance = some m' := by
      intro m m' m'' one other
      exact Option.some.inj (one.symm.trans other)
    -- Of two states on the way the one leads to the other, and neither of these leads anywhere.
    rcases Relation.ReflTransGen.total_of_right_unique deterministic reached reachedToo with on | on
    · rcases Relation.ReflTransGen.cases_head on with same | ⟨m', moved, -⟩
      · exact same.symm
      · cases moved
    · rcases Relation.ReflTransGen.cases_head on with same | ⟨m', moved, -⟩
      · exact same
      · rw [stuck] at moved
        cases moved
  · rintro rfl
    exact ⟨reached, rfl⟩

end Machine

/-! ## What a session does to the default -/

open Machine

/-- What is said of a session of these steps that starts with this default. -/
structure Scoped (start : Named) (steps : List Step) : Prop where
  /-- After the session the last policy that was installed is the default.  What blocks and threads
  install in them does not count. -/
  last : (run start steps).1 = defaultAfter start steps
  /-- A step reports what it does under the default of its place, and there are no other reports. -/
  reports : ∀ path, reportAt? (run start steps).2 path =
    (stepAt? start steps path).map fun found => (step found.1 found.2).2
  /-- A step that looks at the default or replaces it reports by name the one that holds after it;
  and no step that does not fail reports another. -/
  told : ∀ path current s, stepAt? start steps path = some (current, s) →
    ∃ report, reportAt? (run start steps).2 path = some report ∧
      (s = .get ∨ s = .reset ∨ (∃ named, s = .set (.policy named)) →
        report = .done ((installs s).getD current).name) ∧
      ∀ name, report.current? = some name → name = ((installs s).getD current).name
  /-- From one step to the next the default changes only if the first of them installs one. -/
  next : ∀ path i current s next s', stepAt? start steps (path ++ [i]) = some (current, s) →
    stepAt? start steps (path ++ [i + 1]) = some (next, s') → next = (installs s).getD current
  /-- It does not with a block that ends, in whatever way and after whatever was done in it, nor
  with a thread, nor with a step that fails. -/
  kept : ∀ path i current s next s', (∀ named, s ≠ .set (.policy named)) → s ≠ .reset →
    stepAt? start steps (path ++ [i]) = some (current, s) →
    stepAt? start steps (path ++ [i + 1]) = some (next, s') → next = current
  /-- What runs within a block does not depend on what is around it. -/
  inside : ∀ path current s, stepAt? start steps path = some (current, s) → ∀ more ≠ [],
    stepAt? start steps (path ++ more) =
      (block? s).bind fun block => stepAt? block.start block.steps more
  /-- It starts from the policy of the block, and within a thread from the standard policy. -/
  first : ∀ path current s block next s', stepAt? start steps path = some (current, s) →
    block? s = some block → stepAt? start steps (path ++ [0]) = some (next, s') →
    next = block.start
  /-- Sanitizing without a policy is sanitizing by the default, -/
  sanitize : ∀ path current value, stepAt? start steps path = some (current, .sanitize value) →
    ∀ other, (reportAt? (run start steps).2 path).bind Report.outcome? =
      some (sanitizeBy other (.policy current) value)
  /-- and by a policy of its own it does not depend on the default. -/
  sanitizeWith : ∀ path current given value, given ≠ .value .null →
    stepAt? start steps path = some (current, .sanitizeWith given value) →
    ∀ other, (reportAt? (run start steps).2 path).bind Report.outcome? =
      some (sanitizeBy other given value)
  /-- What is no policy cannot be installed, nor begin a block: then nothing in the block runs. -/
  notPolicy : ∀ path current s value, stepAt? start steps path = some (current, s) →
    s = .set (.value value) ∨ (∃ raises inner, s = .within (.value value) raises inner) →
    reportAt? (run start steps).2 path = some (.failed (.notPolicy value.typeName)) ∧
      ∀ more ≠ [], reportAt? (run start steps).2 (path ++ more) = none
  /-- The machine comes to each step, and from there to the next one of the level.  Meanwhile its
  variable changes to what the step installs, whatever is done in between. -/
  onMachine : ∀ path current s, stepAt? start steps path = some (current, s) →
    ∃ rest before outer report, reportAt? (run start steps).2 path = some report ∧
      (ready start steps).Reaches ⟨current, s :: rest, before, outer⟩ ∧
      Reaches ⟨current, s :: rest, before, outer⟩
        ⟨(installs s).getD current, rest, before ++ [report], outer⟩
  /-- The machine comes to rest with the default and the reports of the session. -/
  atRest : ∀ m, (ready start steps).Reaches m ∧ m.advance = none ↔ m = finished start steps

theorem outcome?_sanitizeWith (current : Named) (given : Given) (value : Value) :
    (step current (.sanitizeWith given value)).2.outcome? =
      some (sanitizeBy current given value) := by
  rw [step]
  cases sanitizeBy current given value <;> rfl

theorem sanitizeBy_congr {given : Given} (h : given ≠ .value .null) (current other : Named)
    (value : Value) : sanitizeBy current given value = sanitizeBy other given value := by
  cases given with
  | policy named => rfl
  | value given =>
    cases given with
    | null => exact absurd rfl h
    | _ => rfl

theorem current?_step {name : Option String} (h : (step current s).2.current? = some name) :
    name = ((installs s).getD current).name := by
  cases s with
  | set given | within given raises steps =>
    cases given with
    | policy named =>
      cases h
      rfl
    | value other => cases h
  | sanitizeWith given value =>
    rw [step] at h
    cases outcome : sanitizeBy current given value with
    | ok node =>
      rw [outcome] at h
      cases h
      rfl
    | error fault =>
      rw [outcome] at h
      cases h
  | _ =>
    cases h
    rfl

/-- Every session keeps its defaults where they belong. -/
theorem run_scoped (start : Named) (steps : List Step) : Scoped start steps := by
  have reported {path : List Nat} {current : Named} {s : Step}
      (found : stepAt? start steps path = some (current, s)) :
      reportAt? (run start steps).2 path = some (step current s).2 := by
    rw [reportAt?_run, found, Option.map_some]
  constructor
  case last => exact run_fst start steps
  case reports => exact reportAt?_run start steps
  case told =>
    intro path current s found
    refine ⟨_, reported found, ?_, fun name named => current?_step named⟩
    rintro (rfl | rfl | ⟨named, rfl⟩) <;> rfl
  case next =>
    intro path i current s next s' found found'
    exact stepAt?_succ found found'
  case kept =>
    intro path i current s next s' notSet notReset found found'
    rw [stepAt?_succ found found', installs_eq_none notSet notReset, Option.getD_none]
  case inside =>
    intro path current s found more deeper
    exact stepAt?_append deeper found
  case first =>
    intro path current s block next s' found isBlock found'
    rw [stepAt?_append (List.cons_ne_nil 0 []) found, isBlock, Option.bind_some] at found'
    obtain ⟨_, -, same⟩ := Option.map_eq_some_iff.1 found'
    cases same
    rfl
  case sanitize =>
    intro path current value found other
    rw [reported found]
    rfl
  case sanitizeWith =>
    intro path current given value own found other
    rw [reported found, Option.bind_some, outcome?_sanitizeWith,
      sanitizeBy_congr own current other value]
  case notPolicy =>
    intro path current s value found failing
    have closed : block? s = none ∧
        (step current s).2 = .failed (.notPolicy value.typeName) := by
      rcases failing with rfl | ⟨raises, inner, rfl⟩
      · exact ⟨rfl, rfl⟩
      · exact ⟨rfl, rfl⟩
    refine ⟨by rw [reported found, closed.2], ?_⟩
    intro more deeper
    rw [reportAt?_run, stepAt?_append deeper found, closed.1]
    rfl
  case onMachine =>
    intro path current s found
    obtain ⟨rest, before, outer, reached⟩ := reaches_at found [] []
    refine ⟨rest, before, outer, _, reported found, reached, ?_⟩
    rw [← step_fst]
    exact reaches_step s current rest before outer
  case atRest => exact fun m => rests_iff

end Session

end SafeMarkup

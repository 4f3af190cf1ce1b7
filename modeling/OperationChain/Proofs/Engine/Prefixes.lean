import Mathlib.Data.List.Forall2
import OperationChain.Proofs.Engine.Answers
import OperationChain.Proofs.Engine.Deadlines

/-! # Chains that begin alike

What comes later in a chain makes no difference to the operations before it. The length
of a chain shows in its results only, as slots that are pending still, and in the words
of an error that refers to one of them. Only a `prepare` reads what comes after it.
-/

namespace OperationChain

variable {σ ε ε' α β γ δ : Type}

/-! ## Results that correspond -/

/-- Both are values that correspond, or both are errors that do. -/
inductive EndAlike (E : ε → ε' → Prop) (R : α → β → Prop) : Except ε α → Except ε' β → Prop where
  | ok {a : α} {b : β} (hvalues : R a b) : EndAlike E R (.ok a) (.ok b)
  | error {e : ε} {e' : ε'} (herrors : E e e') : EndAlike E R (.error e) (.error e')

/-- Both errors are of one kind. -/
def Error.Alike (error other : Error) : Prop := error.kind = other.kind

theorem Error.Alike.refl (error : Error) : error.Alike error := rfl

namespace EndAlike

variable {E : ε → ε' → Prop} {R : α → β → Prop} {S : γ → δ → Prop}

theorem same {E : ε → ε → Prop} (hE : ∀ e, E e e) (result : Except ε α) :
    EndAlike E Eq result result := by
  cases result with
  | ok a => exact .ok rfl
  | error e => exact .error (hE e)

theorem bind {first : Except ε α} {first' : Except ε' β} {next : α → Except ε γ}
    {next' : β → Except ε' δ} (hfirst : EndAlike E R first first')
    (hnext : ∀ a b, R a b → EndAlike E S (next a) (next' b)) :
    EndAlike E S (first >>= next) (first' >>= next') := by
  cases hfirst with
  | ok hvalues => exact hnext _ _ hvalues
  | error herrors => exact .error herrors

/-- Values that are equal are gone on with in the same way. -/
theorem bind_same {first : Except ε α} {first' : Except ε' α} {next : α → Except ε γ}
    {next' : α → Except ε' δ} (hfirst : EndAlike E Eq first first')
    (hnext : ∀ a, EndAlike E S (next a) (next' a)) :
    EndAlike E S (first >>= next) (first' >>= next') := by
  refine hfirst.bind fun a b hvalues => ?_
  cases hvalues
  exact hnext a

theorem map {f : α → γ} {g : β → δ} {result : Except ε α} {other : Except ε' β}
    (halike : EndAlike E R result other) (hvalues : ∀ a b, R a b → S (f a) (g b)) :
    EndAlike E S (result.map f) (other.map g) := by
  cases halike with
  | ok h => exact .ok (hvalues _ _ h)
  | error herrors => exact .error herrors

theorem mapM {f : α → Except ε γ} {g : α → Except ε' γ} (hfg : ∀ a, EndAlike E Eq (f a) (g a))
    (list : List α) : EndAlike E Eq (list.mapM f) (list.mapM g) := by
  induction list with
  | nil => exact .ok rfl
  | cons a rest ih =>
      rw [List.mapM_cons, List.mapM_cons]
      exact (hfg a).bind_same fun _ => ih.bind_same fun _ => .ok rfl

end EndAlike

/-! ## Results of a chain -/

namespace Results

/-- Both hold the same, but for pending slots at their ends. -/
def Alike (results others : Results) : Prop := ∀ place, results.slotAt place = others.slotAt place

variable {results others : Results}

theorem alike_ofLength (length other : Nat) : (ofLength length).Alike (ofLength other) := by
  intro place
  rw [slotAt_ofLength, slotAt_ofLength]

/-! Whatever cannot be found or cleared is a bad reference. -/

theorem kind_of_slot_eq_error {index : Int} {error : Error}
    (hslot : results.slot index = .error error) : error.kind = .reference := by
  unfold slot at hslot
  repeat' split at hslot
  all_goals cases hslot
  all_goals rfl

theorem kind_of_get_eq_error {index : Int} {error : Error}
    (hget : results.get index = .error error) : error.kind = .reference := by
  unfold get at hget
  split at hget
  next hslot => cases hget
  next hslot =>
    cases hget
    rfl
  next hslot =>
    cases hget
    rfl
  next hslot =>
    cases hget
    exact kind_of_slot_eq_error hslot

theorem kind_of_clear_eq_error {index : Int} {error : Error}
    (hclear : results.clear index = .error error) : error.kind = .reference := by
  unfold clear at hclear
  split at hclear
  next hslot =>
    cases hclear
    rfl
  next hslot => cases hclear
  next hslot =>
    cases hclear
    exact kind_of_slot_eq_error hslot

/-! What is read of slots does not notice pending ones at the end. -/

theorem collectFrom_of_pending {read : Slot → Option α} (hpending : read .pending = none)
    {slots : List Slot} (hslots : ∀ slot ∈ slots, slot = .pending) (first : Nat) :
    collectFrom read first slots = [] := by
  induction slots generalizing first with
  | nil => rfl
  | cons slot rest ih =>
      rw [collectFrom, hslots slot List.mem_cons_self, hpending]
      exact ih (fun later hlater => hslots later (List.mem_cons_of_mem _ hlater)) _

theorem eq_pending_of_getD {slots : List Slot}
    (hslots : ∀ place : Nat, slots[place]?.getD .pending = .pending) :
    ∀ slot ∈ slots, slot = .pending := by
  intro slot hslot
  obtain ⟨place, hplace⟩ := List.mem_iff_getElem?.mp hslot
  have hpending := hslots place
  rwa [hplace, Option.getD_some] at hpending

theorem collectFrom_congr {read : Slot → Option α} (hpending : read .pending = none)
    {slots others : List Slot}
    (hslots : ∀ place : Nat, slots[place]?.getD .pending = others[place]?.getD .pending)
    (first : Nat) : collectFrom read first slots = collectFrom read first others := by
  induction slots generalizing others first with
  | nil =>
      have hothers := eq_pending_of_getD fun place => (hslots place).symm
      rw [collectFrom_of_pending hpending hothers]
      rfl
  | cons slot rest ih =>
      cases others with
      | nil =>
          rw [collectFrom_of_pending hpending (eq_pending_of_getD hslots)]
          rfl
      | cons other others =>
          have hhead : slot = other := hslots 0
          have htail : ∀ place : Nat, rest[place]?.getD .pending = others[place]?.getD .pending :=
            fun place => hslots (place + 1)
          rw [collectFrom, collectFrom, hhead, ih htail]

namespace Alike

theorem get (halike : results.Alike others) (index : Int) :
    EndAlike Error.Alike Eq (results.get index) (others.get index) := by
  have hcaptured (record : Record) :
      results.get index = .ok record ↔ others.get index = .ok record := by
    simp only [get_eq_ok_iff, ← slotAt_eq_captured_iff, halike _]
  cases hresult : results.get index with
  | ok record =>
      rw [(hcaptured record).mp hresult]
      exact .ok rfl
  | error error =>
      cases hother : others.get index with
      | ok record =>
          rw [(hcaptured record).mpr hother] at hresult
          cases hresult
      | error error' =>
          exact .error ((kind_of_get_eq_error hresult).trans (kind_of_get_eq_error hother).symm)

theorem clear (halike : results.Alike others) (index : Int) :
    EndAlike Error.Alike Alike (results.clear index) (others.clear index) := by
  have hcleared (place : Nat) (hplace : results.slotAt place ≠ .pending) :
      Alike ⟨results.slots.set place .cleared⟩ ⟨others.slots.set place .cleared⟩ := by
    intro i
    rw [slotAt_set (lt_length_of_executed hplace),
      slotAt_set (lt_length_of_executed (halike place ▸ hplace)), halike i]
  cases hresult : results.clear index with
  | ok after =>
      obtain ⟨place, hindex, hplace, rfl⟩ := clear_eq_ok_iff.mp hresult
      rw [clear_eq_ok_iff.mpr ⟨place, hindex, halike place ▸ hplace, rfl⟩]
      exact .ok (hcleared place hplace)
  | error error =>
      cases hother : others.clear index with
      | ok after =>
          obtain ⟨place, hindex, hplace, rfl⟩ := clear_eq_ok_iff.mp hother
          rw [clear_eq_ok_iff.mpr ⟨place, hindex, halike place ▸ hplace, rfl⟩] at hresult
          cases hresult
      | error error' =>
          exact .error ((kind_of_clear_eq_error hresult).trans (kind_of_clear_eq_error hother).symm)

theorem answers (halike : results.Alike others) : results.answers = others.answers :=
  collectFrom_congr rfl halike 0

theorem rowLists (halike : results.Alike others) : results.rowLists = others.rowLists :=
  collectFrom_congr rfl halike 0

theorem capture (halike : results.Alike others) (index : Nat) (record : Record) :
    (results.capture index record).Alike (others.capture index record) := by
  intro place
  rw [slotAt_capture, slotAt_capture, halike place]

end Alike

end Results

/-! ## Sessions -/

/-- The second session is the first, but for results that are alike. -/
def Session.Alike (session other : Session) : Prop :=
  ∃ results, session.results.Alike results ∧ other = { session with results }

namespace Session.Alike

variable {session other : Session}

theorem symm (halike : session.Alike other) : other.Alike session := by
  obtain ⟨results, hresults, rfl⟩ := halike
  exact ⟨session.results, fun place => (hresults place).symm, rfl⟩

theorem results (halike : session.Alike other) : session.results.Alike other.results := by
  obtain ⟨results, hresults, rfl⟩ := halike
  exact hresults

theorem fork (halike : session.Alike other) (operations : Nat) :
    session.fork operations = other.fork operations := by
  obtain ⟨results, _, rfl⟩ := halike
  rfl

theorem context (halike : session.Alike other) (operation : Operation) (timeout : UInt64) :
    Context.of session operation timeout = Context.of other operation timeout := by
  obtain ⟨results, _, rfl⟩ := halike
  rfl

theorem capture (halike : session.Alike other) (index : Nat) (record : Record) :
    Alike { session with results := session.results.capture index record }
      { other with results := other.results.capture index record } := by
  obtain ⟨results, hresults, rfl⟩ := halike
  exact ⟨_, hresults.capture index record, rfl⟩

theorem capturedRows (halike : session.Alike other) (index : Int64) :
    EndAlike Error.Alike Eq (session.capturedRows index) (other.capturedRows index) :=
  (halike.results.get index.toInt).bind_same fun _ => .same Error.Alike.refl _

end Session.Alike

/-! ## Resolution -/

section Resolution

variable {results others : Results} (halike : results.Alike others)
include halike

theorem Param.alike_resolve (param : Param) (binds : Option Binds) :
    EndAlike Error.Alike Eq (param.resolve results binds) (param.resolve others binds) := by
  cases param with
  | literal value => exact .same Error.Alike.refl _
  | bind position => exact .same Error.Alike.refl _
  | reference target =>
      exact (halike.get target.index.toInt).bind_same fun _ => .same Error.Alike.refl _

omit halike in
theorem Error.kind_inParameter (key : String) (error : Error) :
    (error.inParameter key).kind = error.kind := by
  cases error <;> rfl

theorem alike_resolveEntries (binds : Option Binds) (entries : List (String × Param)) :
    EndAlike Error.Alike Eq (resolveEntries results binds entries)
      (resolveEntries others binds entries) := by
  induction entries with
  | nil => exact .ok rfl
  | cons entry rest ih =>
      obtain ⟨key, param⟩ := entry
      have hparam := param.alike_resolve halike binds
      rw [resolveEntries, resolveEntries]
      generalize param.resolve results binds = result, param.resolve others binds = other at hparam
      cases hparam with
      | error herrors =>
          refine .error ?_
          rw [Error.Alike, Error.kind_inParameter, Error.kind_inParameter, herrors]
      | ok hvalues =>
          cases hvalues
          generalize resolveEntries results binds rest = tail,
            resolveEntries others binds rest = tail' at ih
          cases ih with
          | error herrors => exact .error herrors
          | ok hvalues =>
              cases hvalues
              exact .ok rfl

theorem Operation.alike_resolve (operation : Operation) (binds : Option Binds) :
    EndAlike Error.Alike Eq (operation.resolve results binds) (operation.resolve others binds) := by
  refine (alike_resolveEntries halike binds operation.params.entries).map fun _ _ hsame => ?_
  rw [hsame]

end Resolution

/-! ## Runs -/

/-- Both runs stop for the same reason; if something failed, then with errors of one kind. -/
inductive Stop.Alike : Stop → Stop → Prop where
  | failed {error other : Error} (herrors : error.Alike other) :
      Alike (.failed error) (.failed other)
  | overdue (level : Nat) : Alike (.overdue level) (.overdue level)
  | unfinished : Alike .unfinished .unfinished

theorem Stop.Alike.refl (stop : Stop) : stop.Alike stop := by
  cases stop with
  | failed error => exact .failed rfl
  | overdue level => exact .overdue level
  | unfinished => exact .unfinished

namespace Run

open Program

/-- Both runs end alike in every world, and leave the same world. -/
def Alike (R : α → β → Prop) (run : Run σ α) (other : Run σ β) : Prop :=
  ∀ world, EndAlike Stop.Alike R (run.exec world).1 (other.exec world).1 ∧
    (run.exec world).2 = (other.exec world).2

namespace Alike

variable {R : α → β → Prop} {S : γ → δ → Prop}

theorem same (run : Run σ α) : Alike Eq run run := fun _ => ⟨.same Stop.Alike.refl _, rfl⟩

theorem lift {result : Except Error α} {other : Except Error β}
    (halike : EndAlike Error.Alike R result other) :
    Alike R (Run.lift result : Run σ α) (Run.lift other) := by
  intro world
  cases halike with
  | ok hvalues => exact ⟨.ok hvalues, rfl⟩
  | error herrors => exact ⟨.error (.failed herrors), rfl⟩

theorem bind {first : Run σ α} {first' : Run σ β} {next : α → Run σ γ} {next' : β → Run σ δ}
    (hfirst : Alike R first first') (hnext : ∀ a b, R a b → Alike S (next a) (next' b)) :
    Alike S (first >>= next) (first' >>= next') := by
  intro world
  obtain ⟨hending, hafter⟩ := hfirst world
  rw [exec_bind, exec_bind]
  generalize first.exec world = run, first'.exec world = run' at hending hafter
  obtain ⟨result, after⟩ := run
  obtain ⟨result', after'⟩ := run'
  obtain rfl : after = after' := hafter
  cases hending with
  | ok hvalues => exact hnext _ _ hvalues after
  | error hstops => exact ⟨.error hstops, rfl⟩

theorem bind_same {first first' : Run σ α} {next next' : α → Run σ γ} {S : γ → γ → Prop}
    (hfirst : Alike Eq first first') (hnext : ∀ a, Alike S (next a) (next' a)) :
    Alike S (first >>= next) (first' >>= next') := by
  refine hfirst.bind fun a b hvalues => ?_
  cases hvalues
  exact hnext a

theorem within (millis : UInt64) (outer : Deadlines) {body body' : Deadlines → Run σ α}
    (hbody : ∀ deadlines, Alike Eq (body deadlines) (body' deadlines)) :
    Alike Eq (Run.within millis outer body) (Run.within millis outer body') := by
  intro world
  rw [exec_within_eq, exec_within_eq]
  obtain ⟨hending, hafter⟩ := hbody ((world.clock.elapsed + millis.toNat) :: outer) world
  dsimp only
  rw [← hafter]
  refine ⟨?_, rfl⟩
  generalize ((body _).exec world).1 = result, ((body' _).exec world).1 = result' at hending ⊢
  cases hending with
  | ok hvalues =>
      rw [hvalues]
      exact .same Stop.Alike.refl _
  | error hstops =>
      cases hstops with
      | failed herrors => exact .error (.failed herrors)
      | overdue level => exact .same Stop.Alike.refl _
      | unfinished => exact .error .unfinished

end Alike

end Run

/-! ## Operations on the session -/

/-- The change ends alike in alike sessions, and leaves alike sessions. -/
def Update.Alike (change : Update Session α) : Prop :=
  ∀ session other, session.Alike other →
    EndAlike Error.Alike Eq (change.exec session).1 (change.exec other).1 ∧
      (change.exec session).2.Alike (change.exec other).2

namespace Update.Alike

theorem lift_bind (result : Except Error α) {next : α → Update Session β}
    (hnext : ∀ a, Update.Alike (next a)) : Update.Alike (Update.lift result >>= next) := by
  intro session other halike
  rw [exec_lift_bind, exec_lift_bind]
  cases result with
  | ok a => exact hnext a session other halike
  | error error => exact ⟨.same Error.Alike.refl _, halike⟩

theorem throw (error : Error) : Update.Alike (MonadExcept.throw error : Update Session α) :=
  fun _ _ halike => ⟨.same Error.Alike.refl _, halike⟩

theorem modifies {change : Session → Session}
    (hchange : ∀ session results, change { session with results } =
      { change session with results })
    (hresults : ∀ session, (change session).results = session.results) :
    Update.Alike (modify change) := by
  rintro session _ ⟨results, hsame, rfl⟩
  refine ⟨.ok rfl, results, ?_, hchange session results⟩
  change (change session).results.Alike results
  rw [hresults]
  exact hsame

theorem clear (index : Int) : Update.Alike (do
    let results ← Update.lift ((← get).results.clear index)
    modify fun session => { session with results }) := by
  rintro session _ ⟨results, hresults, rfl⟩
  have hcleared := hresults.clear index
  rw [Program.exec_bind_ok (Program.exec_get _), Program.exec_bind_ok (Program.exec_get _),
    exec_lift_bind, exec_lift_bind]
  dsimp only
  generalize session.results.clear index = result, results.clear index = other at hcleared
  cases hcleared with
  | ok halike => exact ⟨.ok rfl, _, halike, rfl⟩
  | error herrors => exact ⟨.error herrors, results, hresults, rfl⟩

end Update.Alike

theorem alike_of_administer {registry : Registry} {ctx : Context} {args : Arguments}
    {change : Update Session Unit} (hchange : administer? registry ctx args = some change) :
    change.Alike := by
  unfold administer? at hchange
  split at hchange <;> cases hchange
  · exact .lift_bind _ fun _ => .modifies (fun _ _ => rfl) fun _ => rfl
  · refine .lift_bind _ fun table => ?_
    split
    · exact .modifies (fun _ _ => rfl) fun _ => rfl
    · exact .throw _
  · exact .lift_bind _ fun _ => .modifies (fun _ _ => rfl) fun _ => rfl
  · exact .lift_bind _ fun _ => .modifies (fun _ _ => rfl) fun _ => rfl
  · exact .lift_bind _ fun _ => .lift_bind _ fun _ => .lift_bind _ fun _ => .lift_bind _ fun _ =>
      .modifies (fun _ _ => rfl) fun _ => rfl
  · refine .lift_bind _ fun enabled => ?_
    split
    · exact .lift_bind _ fun _ => .lift_bind _ fun _ => .modifies (fun _ _ => rfl) fun _ => rfl
    · exact .modifies (fun _ _ => rfl) fun _ => rfl
  · exact .lift_bind _ fun _ => .modifies (fun _ _ => rfl) fun _ => rfl
  · exact .lift_bind _ fun _ => .clear _

/-! ## Operations with a budget -/

section Timed

variable [Store σ] {nested : Nested σ} {ctx : Context} {args : Arguments} {session other : Session}

/-- Operations on the store do not look at results. -/
theorem dataRun?_of_alike (halike : session.Alike other) :
    (dataRun? ctx args session : Option (Deadlines → Run σ Record)) = dataRun? ctx args other := by
  obtain ⟨results, _, rfl⟩ := halike
  rw [← dataRun?_bare, ← dataRun?_bare ctx args { session with results }]
  rfl

omit [Store σ] in
theorem alike_combinerInputs (halike : session.Alike other) :
    EndAlike Error.Alike Eq (combinerInputs args session) (combinerInputs args other) := by
  unfold combinerInputs
  split
  · rw [halike.results.rowLists]
    exact .ok rfl
  · refine (EndAlike.same Error.Alike.refl _).bind_same fun values =>
      (EndAlike.mapM (fun value => ?_) values).bind_same fun _ => .same Error.Alike.refl _
    split
    · exact (halike.capturedRows _).bind_same fun _ => .ok rfl
    · exact .same Error.Alike.refl _

omit [Store σ] in
theorem alike_runProcess (halike : session.Alike other) (deadlines : Deadlines) :
    Run.Alike Eq (runProcess deadlines args session : Run σ Record)
      (runProcess deadlines args other) := by
  refine (Run.Alike.same _).bind_same fun engine => (Run.Alike.lift ?_).bind_same fun _ => .same _
  exact (EndAlike.same Error.Alike.refl _).bind_same fun name =>
    (EndAlike.same Error.Alike.refl _).bind_same fun index =>
      (halike.capturedRows index).bind_same fun rows => .same Error.Alike.refl _

omit [Store σ] in
theorem alike_runMultiProcess (halike : session.Alike other) (deadlines : Deadlines) :
    Run.Alike Eq (runMultiProcess deadlines args session : Run σ Record)
      (runMultiProcess deadlines args other) := by
  refine (Run.Alike.same _).bind_same fun engine => (Run.Alike.lift ?_).bind_same fun _ => .same _
  exact (EndAlike.same Error.Alike.refl _).bind_same fun name =>
    (EndAlike.same Error.Alike.refl _).bind_same fun params =>
      (alike_combinerInputs halike).bind_same fun inputs => .same Error.Alike.refl _

theorem timedRun?_of_alike (halike : session.Alike other) {body : Deadlines → Run σ Record}
    (hbody : timedRun? nested ctx args session = some body) :
    ∃ body', timedRun? nested ctx args other = some body' ∧
      ∀ deadlines, Run.Alike Eq (body deadlines) (body' deadlines) := by
  unfold timedRun? at hbody ⊢
  split at hbody
  · cases hbody
    refine ⟨_, rfl, fun deadlines => ?_⟩
    simp only [runExecutePrepared, halike.fork]
    exact .same _
  · cases hbody
    exact ⟨_, rfl, alike_runProcess halike⟩
  · cases hbody
    exact ⟨_, rfl, alike_runMultiProcess halike⟩
  · cases hbody
    refine ⟨_, rfl, fun deadlines => ?_⟩
    simp only [runServiceProcess, halike.fork]
    exact .same _
  · rw [dataRun?_of_alike halike] at hbody
    exact ⟨body, hbody, fun _ => .same _⟩

end Timed

/-! ## Operations -/

/-- The chain goes on with the same record in sessions that are alike, or the operation
failed with errors of one kind. -/
inductive Step.Alike : Step → Step → Prop where
  | next (record : Record) {session other : Session} (hsessions : session.Alike other) :
      Alike (.next record session) (.next record other)
  | failed {error error' : Error} {session other : Session} (herrors : error.Alike error')
      (hsessions : session.Alike other) : Alike (.failed error session) (.failed error' other)

/-- Both are attempts of one operation in one world and in sessions that are alike, and
they end alike and leave one world. -/
structure Attempt.Alike (attempt other : Attempt σ) : Prop where
  operation : attempt.operation = other.operation
  session : attempt.session.Alike other.session
  before : attempt.before = other.before
  ending : EndAlike Stop.Alike Step.Alike attempt.ending other.ending
  after : attempt.after = other.after

namespace Attempt.Alike

variable {attempt other : Attempt σ}

theorem goesOn_iff (halike : attempt.Alike other) : attempt.GoesOn ↔ other.GoesOn := by
  have hending := halike.ending
  unfold GoesOn
  generalize attempt.ending = ending, other.ending = ending' at hending
  cases hending with
  | error => constructor <;> rintro ⟨_, _, ⟨⟩⟩
  | ok hstep =>
      cases hstep with
      | next => exact ⟨fun _ => ⟨_, _, rfl⟩, fun _ => ⟨_, _, rfl⟩⟩
      | failed => constructor <;> rintro ⟨_, _, ⟨⟩⟩

theorem left (halike : attempt.Alike other) (index : Nat) :
    (attempt.left index).Alike (other.left index) := by
  have hending := halike.ending
  unfold Attempt.left
  generalize attempt.ending = ending, other.ending = ending' at hending
  cases hending with
  | error => exact halike.session
  | ok hstep =>
      cases hstep with
      | next record hsessions => exact hsessions.capture index record
      | failed _ hsessions => exact hsessions

/-- Both failed or none of them did. -/
theorem error_of_failed (halike : attempt.Alike other) {error : Error}
    (hfailed : attempt.error? = some error) :
    ∃ error', other.error? = some error' ∧ error.Alike error' := by
  have hending := halike.ending
  unfold error? at hfailed ⊢
  generalize attempt.ending = ending, other.ending = ending' at hending hfailed
  cases hending with
  | error hstops =>
      cases hstops with
      | failed herrors =>
          cases hfailed
          exact ⟨_, rfl, herrors⟩
      | overdue => cases hfailed
      | unfinished => cases hfailed
  | ok hstep =>
      cases hstep with
      | next => cases hfailed
      | failed herrors _ =>
          cases hfailed
          exact ⟨_, rfl, herrors⟩

end Attempt.Alike

section Operations

variable [Store σ] {nested : Nested σ} {deadlines : Deadlines} {binds : Option Binds}
  {ctx : Context} {args : Arguments} {operation : Operation} {session other : Session}

omit [Store σ] in
theorem alike_runRestoreState (halike : session.Alike other) :
    Run.Alike Step.Alike (runRestoreState args session : Run σ Step)
      (runRestoreState args other) := by
  obtain ⟨results, hresults, rfl⟩ := halike
  exact (Run.Alike.same _).bind_same fun _ => (Run.Alike.same _).bind_same fun snapshot world =>
    ⟨.ok (.next .ok ⟨results, hresults, rfl⟩), rfl⟩

omit [Store σ] in
theorem alike_runSaveState (halike : session.Alike other) :
    Run.Alike Step.Alike (runSaveState session : Run σ Step) (runSaveState other) := by
  obtain ⟨results, hresults, rfl⟩ := halike
  intro world
  rw [exec_runSaveState, exec_runSaveState]
  exact ⟨.ok (.next _ ⟨results, hresults, rfl⟩), rfl⟩

omit [Store σ] in
theorem alike_runRegister (halike : session.Alike other) (shape : Shape) :
    Run.Alike Step.Alike (runRegister shape args session : Run σ Step)
      (runRegister shape args other) :=
  (Run.Alike.same _).bind_same fun _ => (Run.Alike.same _).bind_same fun _ =>
    (Run.Alike.same _).bind_same fun _ _ => ⟨.ok (.next .ok halike), rfl⟩

theorem alike_runResolved (hkind : args.kind ≠ .prepare) (rest rest' : List Operation)
    (halike : session.Alike other) :
    Run.Alike Step.Alike (runResolved nested deadlines ctx args rest session)
      (runResolved nested deadlines ctx args rest' other) := by
  rw [runResolved_rest nested deadlines hkind ctx rest rest']
  unfold runResolved
  split
  · exact fun world => ⟨.error (.failed rfl), rfl⟩
  next hprepare => exact absurd hprepare hkind
  · exact alike_runSaveState halike
  · exact alike_runRestoreState halike
  · split
    · exact alike_runRegister halike _
    · refine (Run.Alike.same _).bind_same fun engine => ?_
      split
      next change hchange =>
        intro world
        obtain ⟨hresult, hsessions⟩ := alike_of_administer hchange session other halike
        refine ⟨.ok ?_, rfl⟩
        generalize change.exec session = run, change.exec other = run' at hresult hsessions
        obtain ⟨result, after⟩ := run
        obtain ⟨result', after'⟩ := run'
        cases hresult with
        | ok => exact .next _ hsessions
        | error herrors => exact .failed herrors hsessions
      · split
        next body hbody =>
          obtain ⟨body', hbody', hbodies⟩ := timedRun?_of_alike halike hbody
          rw [hbody']
          exact (Run.Alike.within ctx.timeout deadlines hbodies).bind_same
            fun record world => ⟨.ok (.next record halike), rfl⟩
        next hnone =>
          have hnone' : timedRun? nested ctx args other = none := by
            refine Option.eq_none_iff_forall_not_mem.mpr fun body hbody => ?_
            obtain ⟨_, hsome, _⟩ := timedRun?_of_alike halike.symm hbody
            rw [hnone] at hsome
            cases hsome
          rw [hnone']
          exact fun world => ⟨.error (.failed rfl), rfl⟩

theorem alike_runOperation (hkind : operation.kind ≠ .prepare) (rest rest' : List Operation)
    (halike : session.Alike other) :
    Run.Alike Step.Alike (runOperation nested deadlines operation rest session binds)
      (runOperation nested deadlines operation rest' other binds) := by
  intro world
  have hresolved := operation.alike_resolve halike.results binds
  generalize hargs : operation.resolve session.results binds = args,
    hargs' : operation.resolve other.results binds = args' at hresolved
  cases hresolved with
  | error herrors =>
      rw [runOperation_unresolved nested deadlines rest world hargs,
        runOperation_unresolved nested deadlines rest' world hargs']
      exact ⟨.error (.failed herrors), rfl⟩
  | ok hsame =>
      cases hsame
      rw [← Operation.resolve_kind hargs] at hkind
      rw [runOperation_resolved nested deadlines rest world hargs,
        runOperation_resolved nested deadlines rest' world hargs', ← halike.context]
      exact alike_runResolved hkind rest rest' halike world

theorem alike_attemptOf (hkind : operation.kind ≠ .prepare) (rest rest' : List Operation)
    (halike : session.Alike other) (world : World σ) :
    (attemptOf nested deadlines binds operation rest session world).Alike
      (attemptOf nested deadlines binds operation rest' other world) where
  operation := rfl
  session := halike
  before := rfl
  ending := (alike_runOperation hkind rest rest' halike world).1
  after := (alike_runOperation hkind rest rest' halike world).2

end Operations

/-! ## Chains -/

section Chains

variable [Store σ] {nested : Nested σ} {deadlines : Deadlines} {binds : Option Binds}
  {shared : List Operation} (hshared : ∀ operation ∈ shared, operation.kind ≠ .prepare)
  (tail tail' : List Operation)
include hshared

/-- The attempts of the operations that two chains share. -/
theorem alike_attemptsFrom (index : Nat) {session other : Session} (halike : session.Alike other)
    (world : World σ) :
    List.Forall₂ Attempt.Alike
      ((attemptsFrom nested deadlines binds index (shared ++ tail) session world).take
        shared.length)
      ((attemptsFrom nested deadlines binds index (shared ++ tail') other world).take
        shared.length) := by
  induction shared generalizing index session other world with
  | nil => exact .nil
  | cons operation rest ih =>
      have hfirst : (attemptOf nested deadlines binds operation (rest ++ tail) session world).Alike
          (attemptOf nested deadlines binds operation (rest ++ tail') other world) :=
        alike_attemptOf (hshared operation List.mem_cons_self) _ _ halike world
      have hrest : ∀ later ∈ rest, later.kind ≠ .prepare :=
        fun later hlater => hshared later (List.mem_cons_of_mem _ hlater)
      rw [List.cons_append, List.cons_append, List.length_cons]
      by_cases hnext :
          (attemptOf nested deadlines binds operation (rest ++ tail) session world).GoesOn
      · rw [attemptsFrom_cons_of_goesOn hnext,
          attemptsFrom_cons_of_goesOn (hfirst.goesOn_iff.mp hnext), ← hfirst.after]
        exact .cons hfirst (ih hrest (index + 1) (hfirst.left index) _)
      · rw [attemptsFrom_cons_of_not_goesOn hnext,
          attemptsFrom_cons_of_not_goesOn fun hgoes => hnext (hfirst.goesOn_iff.mpr hgoes)]
        rw [List.take_succ_cons, List.take_succ_cons, List.take_nil]
        exact .cons hfirst .nil

end Chains

section Failures

variable [Store σ] {nested : Nested σ} {deadlines : Deadlines} {binds : Option Binds} {index : Nat}
  {operation : Operation} {rest : List Operation} {session : Session} {world after : World σ}
  {response : Response} {failure : Failure}

/-- A chain that goes on from the operation with some index does not fail before it. -/
theorem le_index_of_runFrom {operations : List Operation}
    (hrun : (runFrom nested deadlines binds index operations session).exec world =
      (.ok response, after)) (hfailure : response.failure = some failure) :
    index ≤ failure.index := by
  induction operations generalizing index session world with
  | nil =>
      cases hrun
      cases hfailure
  | cons operation rest ih =>
      by_cases hnext : (attemptOf nested deadlines binds operation rest session world).GoesOn
      · rw [exec_runFrom_of_goesOn hnext] at hrun
        exact Nat.le_of_succ_le (ih hrun)
      · rw [exec_runFrom_of_not_goesOn hnext] at hrun
        exact Nat.le_of_eq (failed_of_endingAfter hrun hfailure).1.symm

/-- A chain that fails at one of the operations that it shares with another one has
attempted none behind it, and the other chain does the same, with an error of the same
kind. -/
theorem alike_runFrom {shared : List Operation}
    (hshared : ∀ operation ∈ shared, operation.kind ≠ .prepare) (tail tail' : List Operation)
    {other : Session} (halike : session.Alike other)
    (hrun : (runFrom nested deadlines binds index (shared ++ tail) session).exec world =
      (.ok response, after)) (hfailure : response.failure = some failure)
    (hindex : failure.index < index + shared.length) :
    ∃ error : Error, failure.error.Alike error ∧
      (runFrom nested deadlines binds index (shared ++ tail') other).exec world =
        (.ok ⟨response.results, some ⟨failure.index, error⟩⟩, after) ∧
      index + (attemptsFrom nested deadlines binds index (shared ++ tail) session world).length =
        failure.index + 1 ∧
      index + (attemptsFrom nested deadlines binds index (shared ++ tail') other world).length =
        failure.index + 1 := by
  induction shared generalizing index session other world with
  | nil => exact absurd hindex (Nat.not_lt_of_le (le_index_of_runFrom hrun hfailure))
  | cons operation rest ih =>
      have hfirst : (attemptOf nested deadlines binds operation (rest ++ tail) session world).Alike
          (attemptOf nested deadlines binds operation (rest ++ tail') other world) :=
        alike_attemptOf (hshared operation List.mem_cons_self) _ _ halike world
      have hrest : ∀ later ∈ rest, later.kind ≠ .prepare :=
        fun later hlater => hshared later (List.mem_cons_of_mem _ hlater)
      rw [List.length_cons] at hindex
      rw [List.cons_append] at hrun
      rw [List.cons_append, List.cons_append]
      by_cases hnext :
          (attemptOf nested deadlines binds operation (rest ++ tail) session world).GoesOn
      · have hnext' := hfirst.goesOn_iff.mp hnext
        rw [exec_runFrom_of_goesOn hnext] at hrun
        obtain ⟨error, herror, hother, hlength, hlength'⟩ :=
          ih hrest (hfirst.left index) hrun (by omega)
        rw [exec_runFrom_of_goesOn hnext', attemptsFrom_cons_of_goesOn hnext,
          attemptsFrom_cons_of_goesOn hnext', List.length_cons, List.length_cons, ← hfirst.after]
        exact ⟨error, herror, hother, by omega, by omega⟩
      · have hstop := mt hfirst.goesOn_iff.mpr hnext
        rw [exec_runFrom_of_not_goesOn hnext] at hrun
        obtain ⟨hlast, hfailed⟩ := failed_of_endingAfter hrun hfailure
        obtain ⟨error, hother, herror⟩ := hfirst.error_of_failed hfailed
        rw [endingAfter_of_failed hfailed] at hrun
        cases hrun
        rw [exec_runFrom_of_not_goesOn hstop, endingAfter_of_failed hother,
          attemptsFrom_cons_of_not_goesOn hnext, attemptsFrom_cons_of_not_goesOn hstop, hlast,
          ← hfirst.after, (hfirst.left index).results.answers]
        exact ⟨error, herror, rfl, rfl, rfl⟩

end Failures

/-! ## Requests -/

namespace Engine

theorem alike_startSession (engine : Engine σ) (hints : Request)
    (operations operations' : List Operation) :
    EndAlike Eq Session.Alike (engine.startSession { hints with operations })
      (engine.startSession { hints with operations := operations' }) := by
  have hresults := Results.alike_ofLength operations.length operations'.length
  unfold startSession
  dsimp only
  split
  · exact .ok ⟨_, hresults, rfl⟩
  · refine (EndAlike.same (fun _ => rfl) _).map fun snapshot _ hsame => ⟨_, hresults, ?_⟩
    rw [hsame]
    rfl

variable [Store σ]

/-- Requests that begin with the same operations, without a `prepare` among them, begin
alike: one after the other, these operations find and leave the same world and sessions
that are alike, and they produce the same records. Where one of them fails, neither
request attempts any other, and both give the same answer but for the words of the
error, which is of the same kind. -/
theorem alike_of_shared (engine : Engine σ) (clock : Clock) (depth : Nat) (hints : Request)
    {shared : List Operation} (hshared : ∀ operation ∈ shared, operation.kind ≠ .prepare)
    (tail tail' : List Operation) :
    let request (rest : List Operation) : Request := { hints with operations := shared ++ rest }
    let attempts (rest : List Operation) := engine.attempts clock depth (request rest)
    List.Forall₂ Attempt.Alike ((attempts tail).take shared.length)
        ((attempts tail').take shared.length) ∧
      ∀ response world failure,
        engine.execute clock depth (request tail) = some (response, world) →
        response.failure = some failure → failure.index < shared.length →
        ∃ error : Error, error.kind = failure.error.kind ∧
          engine.execute clock depth (request tail') =
            some (⟨response.results, some ⟨failure.index, error⟩⟩, world) ∧
          (attempts tail).length ≤ failure.index + 1 ∧
          (attempts tail').length ≤ failure.index + 1 := by
  intro request attempts
  have hsessions := engine.alike_startSession hints (shared ++ tail) (shared ++ tail')
  generalize hsession : engine.startSession (request tail) = session,
    hsession' : engine.startSession (request tail') = session' at hsessions
  cases hsessions with
  | @error error _ hsame =>
      cases hsame
      have hnone : attempts tail = [] := by simp only [attempts, Engine.attempts, hsession]
      have hnone' : attempts tail' = [] := by simp only [attempts, Engine.attempts, hsession']
      rw [hnone, hnone', List.take_nil]
      refine ⟨.nil, fun response world failure hexecute hfailure _ => ?_⟩
      rw [execute, hsession] at hexecute
      cases hexecute
      cases hfailure
      rw [execute, hsession']
      exact ⟨error, rfl, rfl, Nat.zero_le _, Nat.zero_le _⟩
  | @ok session session' halike =>
      have hattempts : attempts tail = attemptsFrom (runChain (depth - 1)) [] none 0
          (shared ++ tail) session ⟨engine, clock⟩ := by
        simp only [attempts, Engine.attempts, hsession, request]
      have hattempts' : attempts tail' = attemptsFrom (runChain (depth - 1)) [] none 0
          (shared ++ tail') session' ⟨engine, clock⟩ := by
        simp only [attempts, Engine.attempts, hsession', request]
      rw [hattempts, hattempts']
      refine ⟨alike_attemptsFrom hshared tail tail' 0 halike _, ?_⟩
      intro response world failure hexecute hfailure hindex
      cases depth with
      | zero =>
          rw [execute, hsession] at hexecute
          cases hexecute
      | succ depth =>
          rw [execute, hsession] at hexecute
          dsimp only at hexecute
          split at hexecute
          next answer after hrun =>
            cases hexecute
            obtain ⟨error, herror, hother, hlength, hlength'⟩ :=
              alike_runFrom hshared tail tail' halike hrun hfailure (by omega)
            refine ⟨error, herror.symm, ?_, by simpa using Nat.le_of_eq hlength,
              by simpa using Nat.le_of_eq hlength'⟩
            rw [execute, hsession']
            dsimp only
            rw [runChain, hother]
          next => cases hexecute

/-- A reference to the operation behind it, which is there in one of the requests only. -/
theorem alike_of_shared_forward :
    let forward := Operation.param { kind := .restoreState } "id" (.reference ⟨1, none⟩)
    let engine : Engine NestedStore := { store := {} }
    let clock : Clock := { readings := fun _ => 0 }
    forward.kind ≠ .prepare ∧ ∃ (error : Error) (world : World NestedStore),
      engine.execute clock 1 { operations := [forward] } =
        some (⟨[], some ⟨0, .reference (.inParameter "id" (.outOfRange 1 1))⟩⟩, world) ∧
      error.kind = .reference ∧
      engine.execute clock 1 { operations := [forward, { kind := .saveState }] } =
        some (⟨[], some ⟨0, error⟩⟩, world) := by
  intro forward engine clock
  have hkind : forward.kind ≠ .prepare := by decide
  obtain ⟨_, hfails⟩ := alike_of_shared engine clock 1 {} (List.forall_mem_singleton.mpr hkind)
    [] [{ kind := .saveState }]
  obtain ⟨error, herror, hother, _⟩ := hfails _ _ _ rfl rfl Nat.one_pos
  exact ⟨hkind, error, _, rfl, herror, hother⟩

end Engine

end OperationChain

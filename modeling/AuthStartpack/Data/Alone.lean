import AuthStartpack.Data.Keeps
import AuthStartpack.Program.Sequential

/-!
Owns the rules for an operation that runs without interruption, where the next
step finds the state that the last one left. Such runs are described by the
world and by the events, as far as the clock readings determine them.
-/

namespace AuthStartpack

variable {α : Type}

/-- The events of the journal, in order. -/
def Shared.events (state : State) : List Event := state.journal.map Entry.event

@[simp]
theorem Shared.events_observed (state : State) (input : Input) :
    (state.observed input).events = state.events := rfl

@[simp]
theorem Shared.events_advance (state : State) (call : ℕ) (input : Input)
    (outcome : World × List Event) :
    (state.advance call input outcome).events = state.events ++ outcome.2 := by
  simp [Shared.events, Function.comp_def]

/-- Up to its next write, an uninterrupted operation finds what it left. -/
structure Undisturbed (before after : State) : Prop where
  store : QuietStep before.store after.store
  journal : after.journal = before.journal

theorem Undisturbed.refl (state : State) : Undisturbed state state :=
  ⟨.refl _, rfl⟩

theorem Undisturbed.trans {first second third : State} (early : Undisturbed first second)
    (late : Undisturbed second third) : Undisturbed first third :=
  ⟨early.store.trans late.store, late.journal.trans early.journal⟩

section Rules

variable {admits : State → ℕ → Input → List Event → Prop} {call : ℕ} {state : State}
variable {relation : State → State → Prop}

theorem Calm.alone (admits : State → ℕ → Input → List Event → Prop) (call : ℕ) :
    Calm (.alone admits fun _ _ => True) call Undisturbed where
  refl := .refl
  trans _ _ _ := .trans
  rely _ _ same := same ▸ .refl _
  quiet _ _ _ _ step := ⟨trivial, step, by simp⟩

@[simp]
theorem alone_rely {before after : State} :
    (Law.alone admits relation).rely call before after ↔ before = after := Iff.rfl

@[simp]
theorem alone_admits : (Law.alone admits relation).admits = admits := rfl

@[simp]
theorem alone_guarantee : (Law.alone admits relation).guarantee call = relation := rfl

theorem alone_utcNow {post : Except AppException Instant → State → Prop}
    (rest : ∀ input, admits state call input [] →
      post (.ok input.now) (state.observed input)) :
    Action.utcNow.wp (.alone admits fun _ _ => True) call post state := by
  simp only [Action.wp_utcNow, alone_rely, forall_eq']
  exact fun input admitted => ⟨trivial, rest input admitted⟩

theorem alone_draw {post : Except AppException ℕ → State → Prop}
    (rest : ∀ input, admits state call input [] →
      post (.ok state.store.supply) (state.drew input)) :
    Action.draw.wp (.alone admits fun _ _ => True) call post state := by
  simp only [Action.wp_draw, alone_rely, forall_eq']
  exact fun input admitted => ⟨trivial, rest input admitted⟩

theorem alone_queryOrThrow {read : Db → Except AppException α}
    {post : Except AppException α → State → Prop}
    (rest : ∀ input, admits state call input [] →
      post (read state.store.db) (state.observed input)) :
    (Action.queryOrThrow read).wp (.alone admits fun _ _ => True) call post state := by
  simp only [Action.wp_queryOrThrow, alone_rely, forall_eq']
  exact fun input admitted => ⟨trivial, rest input admitted⟩

theorem alone_saveChanges {changes : Instant → Db → Except AppException Db}
    {events : Db → List Event} {post : Except AppException Unit → State → Prop}
    (saved : ∀ input db, changes input.now state.store.db = .ok db →
      admits state call input (events state.store.db) →
      post (.ok ()) (state.advance call input ({ state.store with db }, events state.store.db)))
    (refused : ∀ input exception, changes input.now state.store.db = .error exception →
      admits state call input [] → post (.error exception) (state.observed input)) :
    (Action.saveChanges changes events).wp (.alone admits fun _ _ => True) call post state := by
  simp only [Action.saveChanges, Program.wp_atomically, alone_rely, forall_eq']
  intro input admitted
  cases outcome : changes input.now state.store.db with
  | ok db =>
      simp only [outcome] at admitted ⊢
      exact ⟨trivial, saved input db outcome admitted⟩
  | error exception =>
      simp only [outcome, Shared.advance_silent] at admitted ⊢
      exact ⟨trivial, refused input exception outcome admitted⟩

theorem alone_stageChanges {post : Except AppException (Option Instant) → State → Prop}
    (failed : ∀ input, input.transient = true → admits state call input [.saveFailed] →
      post (.ok none) (state.advance call input (state.store, [.saveFailed])))
    (saved : ∀ input, admits state call input [] →
      post (.ok (some input.now)) (state.observed input)) :
    Action.stageChanges.wp (.alone admits fun _ _ => True) call post state := by
  simp only [Action.stageChanges, Program.wp_atomically, alone_rely, forall_eq']
  intro input admitted
  by_cases faulted : input.transient = true
  · simp only [faulted, if_true] at admitted ⊢
    exact ⟨trivial, failed input faulted admitted⟩
  · simp only [faulted, Bool.false_eq_true, if_false, Shared.advance_silent] at admitted ⊢
    exact ⟨trivial, saved input admitted⟩

theorem alone_commit {changes : Db → Except AppException Db} {attemptedAt : Instant}
    {events : List Event} {post : Except AppException Bool → State → Prop}
    (failed : ∀ input, input.transient = true →
      admits state call input [.commitFailed attemptedAt] →
      post (.ok false) (state.advance call input (state.store, [.commitFailed attemptedAt])))
    (committed : ∀ input db, changes state.store.db = .ok db → admits state call input events →
      post (.ok true) (state.advance call input ({ state.store with db }, events)))
    (refused : ∀ input exception, changes state.store.db = .error exception →
      post (.error exception) (state.observed input)) :
    (Action.commit changes attemptedAt events).wp (.alone admits fun _ _ => True) call post
      state := by
  simp only [Action.commit, Program.wp_atomically, alone_rely, forall_eq']
  intro input admitted
  by_cases faulted : input.transient = true
  · simp only [faulted, if_true] at admitted ⊢
    exact ⟨trivial, failed input faulted admitted⟩
  simp only [faulted, Bool.false_eq_true, if_false] at admitted ⊢
  cases outcome : changes state.store.db with
  | ok db =>
      simp only [outcome] at admitted ⊢
      exact ⟨trivial, committed input db outcome admitted⟩
  | error exception =>
      simp only [outcome, Shared.advance_silent] at admitted ⊢
      exact ⟨trivial, refused input exception outcome⟩

end Rules

/-! ### Operations under a clock that goes on -/

/-- The clock does not go back. -/
def Onward (state : State) (_ : ℕ) (input : Input) (_ : List Event) : Prop :=
  state.last.now ≤ input.now

instance (state : State) (call : ℕ) (input : Input) (events : List Event) :
    Decidable (Onward state call input events) :=
  inferInstanceAs (Decidable (state.last.now ≤ input.now))

/-! ### Faultless operations under a clock that goes on -/

/-- The steps of runs without failures whose clock never goes back. -/
structure Timely (state : State) (call : ℕ) (input : Input) (events : List Event) : Prop where
  faultless : input.transient = false
  clock : state.last.now ≤ input.now

instance (state : State) (call : ℕ) (input : Input) (events : List Event) :
    Decidable (Timely state call input events) :=
  decidable_of_iff (input.transient = false ∧ state.last.now ≤ input.now)
    ⟨fun ⟨faultless, clock⟩ => ⟨faultless, clock⟩, fun ⟨faultless, clock⟩ => ⟨faultless, clock⟩⟩

/-- Up to its next write, such an operation finds what it left, at a later time. -/
structure Later (before after : State) : Prop where
  undisturbed : Undisturbed before after
  clock : before.last.now ≤ after.last.now

theorem Later.refl (state : State) : Later state state := ⟨.refl _, Int.le_refl _⟩

theorem Later.trans {first second third : State} (early : Later first second)
    (late : Later second third) : Later first third :=
  ⟨early.undisturbed.trans late.undisturbed, Int.le_trans early.clock late.clock⟩

theorem later_observed {state : State} {call : ℕ} {input : Input} {events : List Event}
    (admitted : Timely state call input events) : Later state (state.observed input) :=
  ⟨⟨.refl _, rfl⟩, admitted.clock⟩

theorem later_drew {state : State} {call : ℕ} {input : Input} {events : List Event}
    (admitted : Timely state call input events) : Later state (state.drew input) :=
  ⟨⟨⟨⟨_, rfl⟩, Nat.le_succ _, rfl⟩, rfl⟩, admitted.clock⟩

theorem Calm.timely (call : ℕ) : Calm (.alone Timely fun _ _ => True) call Later where
  refl := .refl
  trans _ _ _ := .trans
  rely _ _ same := same ▸ .refl _
  quiet _ _ _ admitted step := ⟨trivial, ⟨step, by simp⟩, admitted.clock⟩

/-! ### What whole operations keep -/

/-- A relation between the states before and after operations that run one after the other. Reads
are within it. -/
class Steady (relation : State → State → Prop) : Prop where
  later : ∀ before after, Later before after → relation before after
  trans : ∀ first second third, relation first second → relation second third →
    relation first third

/-- Operations that run one after the other, without failures and under a clock that goes on. -/
abbrev Law.timely : Law Input World Event := .alone Timely fun _ _ => True

section Steady

variable {relation : State → State → Prop}

instance [Steady relation] (call : ℕ) : Calm .timely call relation where
  refl state := Steady.later _ _ (.refl state)
  trans := Steady.trans
  rely before after same := Steady.later _ _ (same ▸ .refl before)
  quiet _ _ _ admitted step := ⟨trivial, Steady.later _ _ ⟨⟨step, by simp⟩, admitted.clock⟩⟩

theorem Keeps.of_completes {program : Action α} (keeps : Keeps .timely relation program) {call : ℕ}
    {before after : State} {outcome : Except AppException α}
    (run : program.Completes Timely call before outcome after) : relation before after :=
  run.post_of_wp (keeps call before)

/-- `relation`, for operations that were given a clock reading before they start. -/
def Since (now : Instant) (relation : State → State → Prop) (before after : State) : Prop :=
  now ≤ before.last.now → relation before after ∧ before.last.now ≤ after.last.now

instance (now : Instant) [Steady relation] : Steady (Since now relation) where
  later _ _ later _ := ⟨Steady.later _ _ later, later.clock⟩
  trans _ _ _ early late begun :=
    have ⟨reached, clock⟩ := early begun
    have ⟨kept, goesOn⟩ := late (Int.le_trans begun clock)
    ⟨Steady.trans _ _ _ reached kept, Int.le_trans clock goesOn⟩

theorem Keeps.utcNow_bind {β : Type} [Steady relation] {rest : Instant → Action β}
    (next : ∀ now, Keeps .timely (Since now relation) (rest now)) :
    Keeps .timely relation (Action.utcNow >>= rest) := by
  intro call start
  rw [Program.wp_bind]
  refine Action.calm_utcNow (Calm.timely call) ?_
  intro read later
  rw [Program.andThen_ok]
  refine Program.wp_mono (next read.last.now call read) ?_
  intro outcome after since
  exact Steady.trans _ _ _ (Steady.later _ _ later) (since (Int.le_refl _)).1

end Steady

end AuthStartpack

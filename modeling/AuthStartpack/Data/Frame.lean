import AuthStartpack.Data.Keeps

/-!
Owns the frame rule of the services. A result about some tables and some events
holds whatever is done elsewhere: `Frames law K view counts` says that under
`law` every step stays within `K` that leaves the view of the database alone and
reports no event that counts. A service that writes other tables then keeps `K`
without a look at what `K` says.
-/

namespace AuthStartpack

/-- Whatever leaves `view` alone and reports nothing that counts stays within `K`. -/
class Frames (law : Law Input World Event) (K : State → State → Prop) {τ : outParam Type}
    (view : outParam (Db → τ)) (counts : outParam (Event → Prop)) : Prop where
  calm : ∀ call, Calm law call K
  frame : ∀ call state input world events, law.admits state call input events →
    view world.db = view state.store.db → state.store.supply ≤ world.supply →
    (∀ event ∈ events, ¬ counts event) →
    law.guarantee call state (state.advance call input (world, events)) ∧
      K state (state.advance call input (world, events))

instance {law : Law Input World Event} {K : State → State → Prop} {τ : Type} {view : Db → τ}
    {counts : Event → Prop} [frames : Frames law K view counts] (call : ℕ) : Calm law call K :=
  frames.calm call

/-- Under `Law.concurrent` the relation of the law is framed if its steps are. -/
theorem Frames.concurrent {admits : State → ℕ → Input → List Event → Prop}
    {relation : State → State → Prop} {τ : Type} {view : Db → τ} {counts : Event → Prop}
    (refl : ∀ state, relation state state)
    (trans : ∀ first second third, relation first second → relation second third →
      relation first third)
    (audit : ∀ db auditLogEntries, view { db with auditLogEntries } = view db)
    (frame : ∀ state call input world events, admits state call input events →
      view world.db = view state.store.db → state.store.supply ≤ world.supply →
      (∀ event ∈ events, ¬ counts event) →
        relation state (state.advance call input (world, events))) :
    Frames (.concurrent admits relation) relation view counts where
  calm call :=
    { refl := refl
      trans := trans
      rely := fun _ _ relied => relied.1
      quiet := by
        intro state input world admitted step
        obtain ⟨auditLogEntries, equal⟩ := step.db
        have kept : relation state (state.advance call input (world, [])) := by
          refine frame _ _ _ _ _ admitted ?_ step.supply (fun _ member => nomatch member)
          rw [equal, audit]
        exact ⟨kept, kept⟩ }
  frame call state input world events admitted same supply silent :=
    have kept := frame state call input world events admitted same supply silent
    ⟨kept, kept⟩

/-- For an operation that runs without interruption, a relation of the databases is framed if it
relates databases with the same view. -/
theorem Frames.alone {admits : State → ℕ → Input → List Event → Prop} {relation : Db → Db → Prop}
    {τ : Type} {view : Db → τ}
    (trans : ∀ {first second third}, relation first second → relation second third →
      relation first third)
    (audit : ∀ db auditLogEntries, view { db with auditLogEntries } = view db)
    (frame : ∀ before after, view after = view before → relation before after) :
    Frames (.alone admits fun _ _ => True)
      (fun before after => relation before.store.db after.store.db)
      view fun _ => False where
  calm call :=
    { refl := fun _ => frame _ _ rfl
      trans := fun _ _ _ early late => trans early late
      rely := fun _ _ same => frame _ _ (same ▸ rfl)
      quiet := by
        intro state input world _ step
        obtain ⟨auditLogEntries, equal⟩ := step.db
        refine ⟨trivial, frame _ _ ?_⟩
        rw [Shared.advance_store, equal, audit] }
  frame _ _ _ _ _ _ same _ _ := ⟨trivial, frame _ _ same⟩

namespace Keeps

variable {α : Type} {law : Law Input World Event} {K : State → State → Prop} {τ : Type}
variable {view : Db → τ} {counts : Event → Prop} [frames : Frames law K view counts]

include frames

/-- A save of other tables that reports nothing that counts. -/
theorem frame_reporting {changes : Instant → Db → Except AppException Db} {events : Db → List Event}
    (leaves : ∀ now db after, changes now db = .ok after → view after = view db)
    (silent : ∀ db, ∀ event ∈ events db, ¬ counts event) :
    Keeps law K (Action.saveChanges changes events) := by
  refine saveChanges ?_
  intro call start current input db relied saved admitted
  have calm := frames.calm call
  obtain ⟨kept, stays⟩ := frames.frame call current input { current.store with db } _ admitted
    (leaves _ _ _ saved) (Nat.le_refl _) (silent _)
  exact ⟨kept, calm.trans _ _ _ (calm.rely _ _ relied) stays⟩

theorem frame_saveChanges {changes : Instant → Db → Except AppException Db}
    (leaves : ∀ now db after, changes now db = .ok after → view after = view db) :
    Keeps law K (Action.saveChanges changes) :=
  frame_reporting leaves fun _ _ member => nomatch member

/-- A bulk statement on other tables that reports nothing that counts. -/
theorem frame_execute {count : Db → ℕ} {write : Db → Db} {events : Db → List Event}
    (leaves : ∀ db, view (write db) = view db)
    (silent : ∀ db, ∀ event ∈ events db, ¬ counts event) :
    Keeps law K (Action.execute count write events) := by
  refine execute ?_
  intro call start current input relied admitted
  have calm := frames.calm call
  obtain ⟨kept, stays⟩ := frames.frame call current input
    { current.store with db := write current.store.db } _ admitted (leaves _)
      (Nat.le_refl _) (silent _)
  exact ⟨kept, calm.trans _ _ _ (calm.rely _ _ relied) stays⟩

/-- A step that leaves the view alone and reports nothing that counts. -/
theorem frame_atomically {act : Input → World → Except AppException α × World × List Event}
    (leaves : ∀ input world, view (act input world).2.1.db = view world.db)
    (supply : ∀ input world, world.supply ≤ (act input world).2.1.supply)
    (silent : ∀ input world, ∀ event ∈ (act input world).2.2, ¬ counts event) :
    Keeps law K (Program.atomically act) := by
  intro call start current relied input admitted
  have calm := frames.calm call
  obtain ⟨kept, stays⟩ := frames.frame call current input (act input current.store).2.1 _ admitted
    (leaves _ _) (supply _ _) (silent _ _)
  exact ⟨kept, calm.trans _ _ _ (calm.rely _ _ relied) stays⟩

theorem queueEmailReporting {message : EmailMessage} (silent : ¬ counts (.emailQueued message)) :
    Keeps law K (Action.queueEmailReporting message) :=
  frame_atomically (fun _ _ => rfl) (fun _ _ => Nat.le_refl _)
    fun _ _ _ member => List.mem_singleton.mp member ▸ silent

theorem drawReporting {event : Event} (silent : ¬ counts event) :
    Keeps law K (Action.drawReporting event) :=
  frame_atomically (fun _ _ => rfl) (fun _ _ => Nat.le_succ _)
    fun _ _ _ member => List.mem_singleton.mp member ▸ silent

omit frames in
theorem tryCatch [∀ call, Calm law call K] {program : Action α} {handler : AppException → Action α}
    (keeps : Keeps law K program) (handles : ∀ exception, Keeps law K (handler exception)) :
    Keeps law K (MonadExcept.tryCatch program handler) := by
  intro call start
  rw [Program.wp_tryCatch]
  refine Program.wp_mono (keeps call start) ?_
  intro outcome after reached
  cases outcome with
  | ok value => exact reached
  | error exception => exact (handles exception).after reached

end Keeps

end AuthStartpack

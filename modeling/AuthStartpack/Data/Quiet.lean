import AuthStartpack.Data.Actions

/-!
Owns the rules for quiet steps: reading the clock, drawing a value, a SELECT, a
mail, an audit entry. A quiet step changes nothing that another service reads.
`Calm law call K` says that, for `call` under `law`, everything between two
writes of the call stays within `K`: quiet steps of its own and whatever the law
lets the others do. The rules then pass from a state to a later one related by
`K`, and only the writes of a program are left to prove.
-/

namespace AuthStartpack

/-- The worlds before and after a quiet step. -/
structure QuietStep (before after : World) : Prop where
  db : ∃ auditLogEntries, after.db = { before.db with auditLogEntries }
  supply : before.supply ≤ after.supply
  caches : after.caches = before.caches

theorem QuietStep.refl (world : World) : QuietStep world world :=
  ⟨⟨world.db.auditLogEntries, rfl⟩, Nat.le_refl _, rfl⟩

theorem QuietStep.trans {first second third : World} (early : QuietStep first second)
    (late : QuietStep second third) : QuietStep first third := by
  obtain ⟨entries, equal⟩ := early.db
  obtain ⟨laterEntries, laterEqual⟩ := late.db
  refine ⟨⟨laterEntries, by rw [laterEqual, equal]⟩, ?_, late.caches.trans early.caches⟩
  exact Nat.le_trans early.supply late.supply

/-- `K` relates every state of `call` to the later ones, up to its next write. -/
class Calm (law : Law Input World Event) (call : ℕ) (K : State → State → Prop) : Prop where
  refl : ∀ state, K state state
  trans : ∀ first second third, K first second → K second third → K first third
  rely : ∀ before after, law.rely call before after → K before after
  quiet : ∀ state input world, law.admits state call input [] → QuietStep state.store world →
    law.guarantee call state (state.advance call input (world, [])) ∧
      K state (state.advance call input (world, []))

/-- Between the steps of a call under `Law.concurrent`, the others have kept the relation. -/
theorem Calm.concurrent {admits : State → ℕ → Input → List Event → Prop}
    {relation : State → State → Prop} (call : ℕ) (refl : ∀ state, relation state state)
    (trans : ∀ first second third, relation first second → relation second third →
      relation first third)
    (quiet : ∀ state input world, admits state call input [] → QuietStep state.store world →
      relation state (state.advance call input (world, []))) :
    Calm (.concurrent admits relation) call
      fun before after => relation before after ∧
        ∀ entry ∈ after.journal, entry.call = call → entry ∈ before.journal where
  refl state := ⟨refl state, fun _ member _ => member⟩
  trans first second third early late :=
    ⟨trans _ _ _ early.1 late.1,
      fun entry member own => early.2 entry (late.2 entry member own) own⟩
  rely before after relied :=
    ⟨relied.1, fun _ member own => relied.2.mem_of_own member own⟩
  quiet state input world admitted step := by
    have kept := quiet state input world admitted step
    refine ⟨kept, kept, ?_⟩
    intro entry member _
    simpa using member

/-- Between the steps of a call under `Law.concurrent`, nothing is reported in its name. -/
theorem Calm.reporting {admits : State → ℕ → Input → List Event → Prop}
    {relation : State → State → Prop} (call : ℕ) (refl : ∀ state, relation state state)
    (trans : ∀ first second third, relation first second → relation second third →
      relation first third)
    (quiet : ∀ state input world, admits state call input [] → QuietStep state.store world →
      relation state (state.advance call input (world, []))) :
    Calm (.concurrent admits relation) call
      fun before after => relation before after ∧ after.eventsOf call = before.eventsOf call where
  refl state := ⟨refl state, rfl⟩
  trans first second third early late :=
    ⟨trans _ _ _ early.1 late.1, late.2.trans early.2⟩
  rely before after relied := ⟨relied.1, relied.2.eventsOf⟩
  quiet state input world admitted step := by
    have kept := quiet state input world admitted step
    exact ⟨kept, kept, by rw [Shared.eventsOf_advance, List.append_nil]⟩

namespace Action

variable {α β τ : Type}
variable {law : Law Input World Event} {call : ℕ} {K : State → State → Prop} {state : State}

section Rules

variable (calm : Calm law call K)

include calm

theorem calm_utcNow {post : Except AppException Instant → State → Prop}
    (rest : ∀ later, K state later → post (.ok later.last.now) later) :
    utcNow.wp law call post state := by
  intro current relied input admitted
  have reached := calm.rely _ _ relied
  obtain ⟨kept, stays⟩ := calm.quiet current input current.store admitted (.refl _)
  exact ⟨kept, rest _ (calm.trans _ _ _ reached stays)⟩

theorem calm_draw {post : Except AppException ℕ → State → Prop}
    (rest : ∀ earlier later, K state earlier → K earlier later →
      later.store.supply = earlier.store.supply + 1 →
      post (.ok earlier.store.supply) later) :
    draw.wp law call post state := by
  intro current relied input admitted
  have reached := calm.rely _ _ relied
  obtain ⟨kept, stays⟩ := calm.quiet current input
    { current.store with supply := current.store.supply + 1 } admitted
    ⟨⟨_, rfl⟩, Nat.le_succ _, rfl⟩
  exact ⟨kept, rest _ _ reached stays rfl⟩

/-- The reading, with the moment at which it is taken. -/
theorem seen_utcNow {post : Except AppException Instant → State → Prop}
    (rest : ∀ current input, K state current → law.admits current call input [] →
      K current (current.observed input) → post (.ok input.now) (current.observed input)) :
    utcNow.wp law call post state := by
  rw [wp_utcNow]
  intro current relied input admitted
  obtain ⟨kept, stays⟩ := calm.quiet current input current.store admitted (.refl _)
  rw [Shared.advance_silent] at kept stays
  exact ⟨kept, rest current input (calm.rely _ _ relied) admitted stays⟩

/-- The answer, with the moment at which it is read. -/
theorem seen_queryOrThrow {read : Db → Except AppException α}
    {post : Except AppException α → State → Prop}
    (rest : ∀ current input, K state current → law.admits current call input [] →
      K current (current.observed input) → post (read current.store.db) (current.observed input)) :
    (queryOrThrow read).wp law call post state := by
  rw [wp_queryOrThrow]
  intro current relied input admitted
  obtain ⟨kept, stays⟩ := calm.quiet current input current.store admitted (.refl _)
  rw [Shared.advance_silent] at kept stays
  exact ⟨kept, rest current input (calm.rely _ _ relied) admitted stays⟩

theorem calm_queryOrThrow {read : Db → Except AppException α}
    {post : Except AppException α → State → Prop}
    (rest : ∀ later, K state later → post (read later.store.db) later) :
    (queryOrThrow read).wp law call post state :=
  seen_queryOrThrow calm fun _ _ reached _ stays => rest _ (calm.trans _ _ _ reached stays)

theorem seen_query {read : Db → α} {post : Except AppException α → State → Prop}
    (rest : ∀ current input, K state current → law.admits current call input [] →
      K current (current.observed input) →
      post (.ok (read current.store.db)) (current.observed input)) :
    (query read).wp law call post state := by
  have asThrowing : query read = queryOrThrow fun db => .ok (read db) := rfl
  rw [asThrowing]
  exact seen_queryOrThrow calm rest

theorem calm_query {read : Db → α} {post : Except AppException α → State → Prop}
    (rest : ∀ later, K state later → post (.ok (read later.store.db)) later) :
    (query read).wp law call post state :=
  seen_query calm fun _ _ reached _ stays => rest _ (calm.trans _ _ _ reached stays)

theorem calm_queueEmail {message : EmailMessage} {post : Except AppException Unit → State → Prop}
    (rest : ∀ later, K state later → post (.ok ()) later) :
    (queueEmail message).wp law call post state := by
  intro current relied input admitted
  have reached := calm.rely _ _ relied
  obtain ⟨kept, stays⟩ := calm.quiet current input
    { current.store with outbox := current.store.outbox ++ [message] } admitted
    ⟨⟨_, rfl⟩, Nat.le_refl _, rfl⟩
  exact ⟨kept, rest _ (calm.trans _ _ _ reached stays)⟩

end Rules

/-- A bulk statement is one write. -/
theorem wp_execute {count : Db → ℕ} {write : Db → Db} {events : Db → List Event}
    {post : Except AppException ℕ → State → Prop} (calm : Calm law call K)
    (step : ∀ current input, K state current →
      law.admits current call input (events current.store.db) →
      law.guarantee call current (current.advance call input
          ({ current.store with db := write current.store.db }, events current.store.db)) ∧
        post (.ok (count current.store.db)) (current.advance call input
          ({ current.store with db := write current.store.db }, events current.store.db))) :
    (execute count write events).wp law call post state := by
  intro current relied input admitted
  exact step current input (calm.rely _ _ relied) admitted

/-- A `SaveChanges` writes once, or throws and leaves everything as it is. -/
theorem wp_saveChanges {changes : Instant → Db → Except AppException Db}
    {events : Db → List Event} {post : Except AppException Unit → State → Prop}
    (calm : Calm law call K)
    (saved : ∀ current input db, K state current →
      changes input.now current.store.db = .ok db →
      law.admits current call input (events current.store.db) →
      law.guarantee call current (current.advance call input
          ({ current.store with db }, events current.store.db)) ∧
        post (.ok ()) (current.advance call input
          ({ current.store with db }, events current.store.db)))
    (refused : ∀ current later exception now, K state current → K current later →
      changes now current.store.db = .error exception → post (.error exception) later) :
    (saveChanges changes events).wp law call post state := by
  intro current relied input admitted
  have reached := calm.rely _ _ relied
  dsimp only at admitted ⊢
  split at admitted
  case h_1 db outcome =>
    exact saved current input db reached outcome admitted
  case h_2 exception outcome =>
    obtain ⟨kept, stays⟩ := calm.quiet current input current.store admitted (.refl _)
    exact ⟨kept, refused _ _ exception _ reached stays outcome⟩

/-- Also a refused save is reported. -/
theorem wp_attemptChanges {changes : Instant → Db → Except AppException Db} {events : List Event}
    {post : Except AppException Unit → State → Prop} (calm : Calm law call K)
    (saved : ∀ current input db, K state current →
      changes input.now current.store.db = .ok db → law.admits current call input events →
      let written := current.advance call input ({ current.store with db }, events)
      law.guarantee call current written ∧ post (.ok ()) written)
    (refused : ∀ current input exception, K state current →
      changes input.now current.store.db = .error exception →
      law.admits current call input events →
      let reported := current.advance call input (current.store, events)
      law.guarantee call current reported ∧ post (.error exception) reported) :
    (attemptChanges changes events).wp law call post state := by
  intro current relied input admitted
  have reached := calm.rely _ _ relied
  dsimp only at admitted ⊢
  split at admitted
  case h_1 db outcome => exact saved current input db reached outcome admitted
  case h_2 exception outcome => exact refused current input exception reached outcome admitted

theorem wp_orThrow {exception : AppException} {value : Option α}
    {post : Except AppException α → State → Prop} :
    (orThrow exception value).wp law call post state ↔
      match value with
      | some found => post (.ok found) state
      | none => post (.error exception) state := by
  cases value <;> rfl

end Action

end AuthStartpack

import AuthStartpack.Data.Quiet

/-!
Owns what whole programs keep: `Keeps law K program` says that, run by any call
under `law`, the program ends in a state that `K` relates to the one it began
in. The rules compose it along a program, so that only its writes are left to
prove; `Yields` says in addition what the program returns. `K` is a relation
between whole operations under `Law.alone`, and nothing at all where the
guarantee of `Law.concurrent` is all that is wanted.
-/

namespace AuthStartpack

variable {α β : Type} {law : Law Input World Event} {K : State → State → Prop}

/-- Every call of the program under `law` ends within `K` of its beginning. -/
def Keeps (law : Law Input World Event) (K : State → State → Prop) (program : Action α) : Prop :=
  ∀ call start, program.wp law call (fun _ after => K start after) start

namespace Keeps

variable [∀ call, Calm law call K] {program : Action α}

/-- The rest of an operation, from a state that it has reached. -/
theorem after (keeps : Keeps law K program) {call : ℕ} {start current : State}
    (reached : K start current) :
    program.wp law call (fun _ after => K start after) current := by
  refine Program.wp_mono (keeps call current) ?_
  intro outcome after later
  exact Calm.trans law call _ _ _ reached later

theorem pure (value : α) : Keeps law K (Pure.pure value : Action α) :=
  fun call state => Calm.refl law call state

theorem throw (exception : AppException) :
    Keeps law K (MonadExcept.throw exception : Action α) :=
  fun call state => Calm.refl law call state

theorem done (outcome : Except AppException α) : Keeps law K (Program.done outcome : Action α) :=
  fun call state => Calm.refl law call state

theorem bind {rest : α → Action β} (first : Keeps law K program)
    (next : ∀ value, Keeps law K (rest value)) : Keeps law K (program >>= rest) := by
  intro call start
  refine Program.wp_bind_of (first call start) ?_ ?_
  · intro value current reached
    exact (next value).after reached
  · intro exception current reached
    exact reached

/-- A program that keeps `K`, before a rest that is verified from the states within `K`. -/
theorem bind_wp {rest : α → Action β} (keeps : Keeps law K program) {call : ℕ}
    {start current : State} (reached : K start current)
    (next : ∀ value later, K start later →
      (rest value).wp law call (fun _ after => K start after) later) :
    (program >>= rest).wp law call (fun _ after => K start after) current := by
  refine Program.wp_bind_of (keeps.after reached) ?_ ?_
  · intro value later within
    exact next value later within
  · intro exception later within
    exact within

omit [∀ call, Calm law call K] in
theorem ite {condition : Prop} [Decidable condition] {other : Action α}
    (yes : Keeps law K program) (no : Keeps law K other) :
    Keeps law K (if condition then program else other) := by
  split
  · exact yes
  · exact no

/-- `if condition then throw exception` before the rest of a program. -/
theorem guard {condition : Prop} [Decidable condition] {exception : AppException}
    {rest : PUnit → Action α} (next : Keeps law K (rest ())) :
    Keeps law K
      (if condition then (MonadExcept.throw exception : Action PUnit) >>= rest else rest ()) :=
  ite (throw exception) next

theorem utcNow : Keeps law K Action.utcNow :=
  fun _ _ => Action.calm_utcNow inferInstance fun _ later => later

theorem draw : Keeps law K Action.draw :=
  fun call _ => Action.calm_draw inferInstance
    fun _ _ earlier later _ => Calm.trans law call _ _ _ earlier later

theorem query (read : Db → α) : Keeps law K (Action.query read) :=
  fun _ _ => Action.calm_query inferInstance fun _ later => later

theorem queryOrThrow (read : Db → Except AppException α) : Keeps law K (Action.queryOrThrow read) :=
  fun _ _ => Action.calm_queryOrThrow inferInstance fun _ later => later

theorem orThrow (exception : AppException) (value : Option α) :
    Keeps law K (Action.orThrow exception value) := by
  cases value with
  | none => exact throw exception
  | some found => exact pure found

theorem queueEmail (message : EmailMessage) : Keeps law K (Action.queueEmail message) :=
  fun _ _ => Action.calm_queueEmail inferInstance fun _ later => later

omit [∀ call, Calm law call K] in
/-- A bulk statement. -/
theorem execute {count : Db → ℕ} {write : Db → Db} {events : Db → List Event}
    (change : ∀ call start current input, law.rely call start current →
      law.admits current call input (events current.store.db) →
      let written := current.advance call input
        ({ current.store with db := write current.store.db }, events current.store.db)
      law.guarantee call current written ∧ K start written) :
    Keeps law K (Action.execute count write events) :=
  fun call start current relied input admitted => change call start current input relied admitted

/-- A save. -/
theorem saveChanges {changes : Instant → Db → Except AppException Db} {events : Db → List Event}
    (change : ∀ call start current input db, law.rely call start current →
      changes input.now current.store.db = .ok db →
      law.admits current call input (events current.store.db) →
      let written := current.advance call input ({ current.store with db }, events current.store.db)
      law.guarantee call current written ∧ K start written) :
    Keeps law K (Action.saveChanges changes events) := by
  intro call start current relied input admitted
  dsimp only at admitted ⊢
  split at admitted
  case h_1 db saved => exact change call start current input db relied saved admitted
  case h_2 exception refused =>
    have calm : Calm law call K := inferInstance
    obtain ⟨kept, stays⟩ := calm.quiet current input current.store admitted (.refl _)
    exact ⟨kept, calm.trans _ _ _ (calm.rely _ _ relied) stays⟩

end Keeps

/-! ### What programs return -/

/-- The program keeps `K`, and what it returns is `good`. -/
def Yields (law : Law Input World Event) (K : State → State → Prop) (good : α → State → Prop)
    (program : Action α) : Prop :=
  ∀ call start, program.wp law call
    (fun outcome after => K start after ∧ ∀ value, outcome = .ok value → good value after) start

namespace Yields

variable [∀ call, Calm law call K] {good : α → State → Prop} {program : Action α}

theorem throw (exception : AppException) :
    Yields law K good (MonadExcept.throw exception : Action α) :=
  fun call start => ⟨Calm.refl law call start, fun _ impossible => nomatch impossible⟩

theorem pure {value : α} (holds : ∀ state, good value state) :
    Yields law K good (Pure.pure value) := by
  intro call start
  refine ⟨Calm.refl law call start, ?_⟩
  rintro _ ⟨⟩
  exact holds start

/-- The rest of an operation, from a state that it has reached. -/
theorem after (yields : Yields law K good program) {call : ℕ} {start current : State}
    (reached : K start current) :
    program.wp law call (fun outcome after => K start after ∧
      ∀ value, outcome = .ok value → good value after) current := by
  refine Program.wp_mono (yields call current) ?_
  rintro outcome after ⟨kept, holds⟩
  exact ⟨Calm.trans law call _ _ _ reached kept, holds⟩

/-- After a program whose result does not matter. -/
theorem bind {first : Action β} {rest : β → Action α} (keeps : Keeps law K first)
    (next : ∀ value, Yields law K good (rest value)) : Yields law K good (first >>= rest) := by
  intro call start
  refine Program.wp_bind_of (keeps call start) ?_ ?_
  · intro value current reached
    exact (next value).after reached
  · intro exception current reached
    exact ⟨reached, fun _ impossible => nomatch impossible⟩

omit [∀ call, Calm law call K] in
theorem ite {condition : Prop} [Decidable condition] {other : Action α}
    (yes : Yields law K good program) (no : Yields law K good other) :
    Yields law K good (if condition then program else other) := by
  split
  · exact yes
  · exact no

/-- Reporting a result and wrapping it. -/
theorem report {made : β → State → Prop} {first : Action β} {log : β → Action Unit} {wrap : β → α}
    (yields : Yields law K made first) (keeps : ∀ value, Keeps law K (log value))
    (holds : ∀ value before after, made value before → K before after → good (wrap value) after) :
    Yields law K good (first >>= fun value => log value >>= fun _ => Pure.pure (wrap value)) := by
  intro call start
  have calm : Calm law call K := inferInstance
  refine Program.wp_bind_of (yields call start) ?_ ?_
  · rintro value current ⟨reached, isMade⟩
    refine Program.wp_bind_of (keeps value call current) ?_ ?_
    · intro _ after logged
      refine ⟨calm.trans _ _ _ reached logged, ?_⟩
      rintro _ ⟨⟩
      exact holds value current after (isMade value rfl) logged
    · intro exception after logged
      exact ⟨calm.trans _ _ _ reached logged, fun _ impossible => nomatch impossible⟩
  · rintro exception current ⟨reached, -⟩
    exact ⟨reached, fun _ impossible => nomatch impossible⟩

end Yields

end AuthStartpack

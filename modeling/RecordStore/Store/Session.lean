import RecordStore.Store.Context
import RecordStore.Store.Tables

/-!
# Sessions

What is done to a store is a sequence of steps, each of which reads the tables, changes them by one
statement, or fails. A failure by itself undoes nothing: what was written before it stays. Only a
transaction takes back what its steps have written when one of them fails.
-/

namespace RecordStore

/-- A sequence of steps that ends with a result or an error, and either way leaves a store. -/
abbrev Session := EStateM Error Store

namespace Session

variable {α β : Type} {s t u : Store} {e : Error}

/-! ### Steps -/

def ofResult : Except Error α → Session α
  | .ok a => pure a
  | .error e => throw e

instance : MonadLift (Except Error) (EStateM Error Store) := ⟨ofResult⟩

/-- One statement. Where a unique index forbids it, it is refused as a whole. -/
def write (allowed : Store → Prop) [DecidablePred allowed] (change : Store → Store) :
    Session Unit := fun s =>
  if allowed s then .ok () (change s) else .error (.conflict .uniqueIndex) s

/-- Steps that all take effect or none: when one fails, the store is again as it was before. -/
def transaction (body : Session α) : Session α := fun s =>
  match body.run s with
  | .ok a t => .ok a t
  | .error e _ => .error e s

/-- A look into the tables that may find that there is nothing to be seen. -/
def look (f : Store → Except Error α) : Session α := do ofResult (f (← get))

/-! ### How steps end -/

theorem run_bind_eq_ok {x : Session α} {f : α → Session β} {b : β} :
    (x >>= f).run s = .ok b u ↔ ∃ a t, x.run s = .ok a t ∧ (f a).run t = .ok b u := by
  cases hx : x.run s with
  | ok a t =>
    simp only [EStateM.run_bind, hx]
    constructor
    · exact fun h => ⟨a, t, rfl, h⟩
    · rintro ⟨a', t', h, hf⟩
      cases h
      exact hf
  | error e t => simp [EStateM.run_bind, hx]

theorem run_bind_eq_error {x : Session α} {f : α → Session β} :
    (x >>= f).run s = .error e u ↔
      x.run s = .error e u ∨ ∃ a t, x.run s = .ok a t ∧ (f a).run t = .error e u := by
  cases hx : x.run s with
  | ok a t =>
    simp only [EStateM.run_bind, hx]
    constructor
    · exact fun h => .inr ⟨a, t, rfl, h⟩
    · rintro (h | ⟨a', t', h, hf⟩)
      · cases h
      · cases h
        exact hf
  | error e t => simp [EStateM.run_bind, hx]

theorem run_liftM_eq_ok {x : Except Error α} {a : α} :
    (liftM x : Session α).run s = .ok a t ↔ x = .ok a ∧ t = s := by
  cases x with
  | ok b =>
    change EStateM.Result.ok b s = .ok a t ↔ _
    simp [eq_comm]
  | error e =>
    change EStateM.Result.error e s = .ok a t ↔ _
    simp

theorem run_liftM_eq_error {x : Except Error α} :
    (liftM x : Session α).run s = .error e t ↔ x = .error e ∧ t = s := by
  cases x with
  | ok b =>
    change EStateM.Result.ok b s = .error e t ↔ _
    simp
  | error e' =>
    change EStateM.Result.error e' s = .error e t ↔ _
    simp [eq_comm]

theorem run_liftM_bind_eq_ok {x : Except Error α} {f : α → Session β} {b : β} :
    (liftM x >>= f).run s = .ok b t ↔ ∃ a, x = .ok a ∧ (f a).run s = .ok b t := by
  rw [run_bind_eq_ok]
  constructor
  · rintro ⟨a, u, hx, hf⟩
    obtain ⟨hok, rfl⟩ := run_liftM_eq_ok.mp hx
    exact ⟨a, hok, hf⟩
  · rintro ⟨a, hx, hf⟩
    exact ⟨a, s, run_liftM_eq_ok.mpr ⟨hx, rfl⟩, hf⟩

theorem run_look_bind_eq_ok {f : Store → Except Error α} {g : α → Session β} {b : β} :
    (look f >>= g).run s = .ok b t ↔ ∃ a, f s = .ok a ∧ (g a).run s = .ok b t :=
  run_liftM_bind_eq_ok

theorem run_get_bind_eq_ok {g : Store → Session β} {b : β} :
    (get >>= g).run s = .ok b t ↔ (g s).run s = .ok b t := Iff.rfl

theorem run_write_eq_ok {allowed : Store → Prop} [DecidablePred allowed] {change : Store → Store}
    {a : Unit} : (write allowed change).run s = .ok a t ↔ allowed s ∧ t = change s := by
  by_cases h : allowed s <;> simp [write, EStateM.run, h, eq_comm]

theorem run_get_bind_eq_error {g : Store → Session β} :
    (get >>= g).run s = .error e t ↔ (g s).run s = .error e t := Iff.rfl

theorem run_write_eq_error {allowed : Store → Prop} [DecidablePred allowed]
    {change : Store → Store} :
    (write allowed change).run s = .error e t ↔
      ¬ allowed s ∧ e = .conflict .uniqueIndex ∧ t = s := by
  by_cases h : allowed s <;> simp [write, EStateM.run, h, eq_comm]

theorem run_transaction_eq_ok {body : Session α} {a : α} :
    (transaction body).run s = .ok a t ↔ body.run s = .ok a t := by
  rw [show (transaction body).run s = match body.run s with
    | .ok a t => .ok a t
    | .error e _ => .error e s from rfl]
  cases body.run s <;> simp

/-- A transaction that fails leaves the store it began with. -/
theorem run_transaction_eq_error {body : Session α} :
    (transaction body).run s = .error e t ↔ (∃ u, body.run s = .error e u) ∧ t = s := by
  rw [show (transaction body).run s = match body.run s with
    | .ok a t => .ok a t
    | .error e _ => .error e s from rfl]
  cases body.run s <;> simp [eq_comm]

theorem eq_of_run_transaction_eq_error {body : Session α}
    (h : (transaction body).run s = .error e t) : t = s :=
  (run_transaction_eq_error.mp h).2

end Session

end RecordStore

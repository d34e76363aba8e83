import RecordStore.Store.Call

/-!
# What sessions do

Ways to speak of a session. It yields something if that holds whenever it succeeds; it settles
something if moreover it leaves the store as it was whenever it fails; it keeps a property of stores
if each of its steps does; where the outcome is certain, it succeeds or it fails; and where it may
fail, it does so only with certain errors. Steps inside a transaction need only yield: what they
leave behind when they fail is taken back.
-/

namespace RecordStore.Session

variable {α β : Type} {s : Store}

/-! ### Success -/

/-- If the steps succeed on a store, the result and the store after them are as stated. -/
def Yields (s : Store) (x : Session α) (Q : α → Store → Prop) : Prop :=
  ∀ ⦃a t⦄, x.run s = .ok a t → Q a t

namespace Yields

variable {Q R : α → Store → Prop} {P : β → Store → Prop}

theorem mono {x : Session α} (h : Yields s x Q) (hQR : ∀ a t, Q a t → R a t) : Yields s x R :=
  fun a t hrun => hQR a t (h hrun)

theorem pure {a : α} (h : Q a s) : Yields s (Pure.pure a) Q := by
  intro b t hrun
  cases hrun
  exact h

theorem bind {x : Session α} {f : α → Session β} (h : Yields s x fun a t => Yields t (f a) P) :
    Yields s (x >>= f) P := by
  intro b u hrun
  obtain ⟨a, t, hx, hf⟩ := run_bind_eq_ok.mp hrun
  exact h hx hf

theorem get {f : Store → Session β} (h : Yields s (f s) P) :
    Yields s (MonadState.get >>= f) P := by
  refine bind fun a t hrun => ?_
  cases hrun
  exact h

theorem liftM {x : Except Error α} {f : α → Session β} (h : ∀ a, x = .ok a → Yields s (f a) P) :
    Yields s ((MonadLiftT.monadLift x : Session α) >>= f) P := by
  refine bind fun a t hrun => ?_
  obtain ⟨hx, rfl⟩ := run_liftM_eq_ok.mp hrun
  exact h a hx

theorem look {g : Store → Except Error α} {f : α → Session β}
    (h : ∀ a, g s = .ok a → Yields s (f a) P) : Yields s (Session.look g >>= f) P := liftM h

theorem modify {change : Store → Store} {Q : Unit → Store → Prop} (h : Q () (change s)) :
    Yields s (modify change : Session Unit) Q := by
  intro a t hrun
  cases hrun
  exact h

theorem write {allowed : Store → Prop} [DecidablePred allowed] {change : Store → Store}
    {Q : Unit → Store → Prop} (h : allowed s → Q () (change s)) :
    Yields s (Session.write allowed change) Q := by
  intro a t hrun
  obtain ⟨hallowed, rfl⟩ := run_write_eq_ok.mp hrun
  exact h hallowed

theorem transaction {body : Session α} (h : Yields s body Q) :
    Yields s (Session.transaction body) Q := fun _ _ hrun => h (run_transaction_eq_ok.mp hrun)

/-- What comes at the end only to be looked at changes nothing. -/
theorem lookOnly {g : Store → Except Error α} (h : ∀ a, g s = .ok a → Q a s) :
    Yields s (Session.look g) Q := by
  intro a t hrun
  obtain ⟨hg, rfl⟩ := run_liftM_eq_ok.mp hrun
  exact h a hg

end Yields

/-! ### Success that is certain -/

/-- The steps succeed on a store, and the result and the store after them are as stated. -/
def Succeeds (s : Store) (x : Session α) (Q : α → Store → Prop) : Prop :=
  ∃ a t, x.run s = .ok a t ∧ Q a t

namespace Succeeds

variable {Q R : α → Store → Prop} {P : β → Store → Prop}

theorem mono {x : Session α} (h : Succeeds s x Q) (hQR : ∀ a t, Q a t → R a t) :
    Succeeds s x R := by
  obtain ⟨a, t, hx, hQ⟩ := h
  exact ⟨a, t, hx, hQR a t hQ⟩

theorem pure {a : α} (h : Q a s) : Succeeds s (Pure.pure a) Q := ⟨a, s, rfl, h⟩

theorem look {f : Store → Except Error α} {a : α} (hf : f s = .ok a) (h : Q a s) :
    Succeeds s (Session.look f) Q := ⟨a, s, run_liftM_eq_ok.mpr ⟨hf, rfl⟩, h⟩

theorem liftM {x : Except Error α} {a : α} (hx : x = .ok a) (h : Q a s) :
    Succeeds s (MonadLiftT.monadLift x : Session α) Q := ⟨a, s, run_liftM_eq_ok.mpr ⟨hx, rfl⟩, h⟩

theorem bind {x : Session α} {f : α → Session β}
    (h : Succeeds s x fun a t => Succeeds t (f a) P) : Succeeds s (x >>= f) P := by
  obtain ⟨a, t, hx, b, u, hf, hP⟩ := h
  exact ⟨b, u, run_bind_eq_ok.mpr ⟨a, t, hx, hf⟩, hP⟩

theorem write {allowed : Store → Prop} [DecidablePred allowed] {change : Store → Store}
    {Q : Unit → Store → Prop} (hallowed : allowed s) (h : Q () (change s)) :
    Succeeds s (Session.write allowed change) Q :=
  ⟨(), change s, run_write_eq_ok.mpr ⟨hallowed, rfl⟩, h⟩

theorem transaction {body : Session α} (h : Succeeds s body Q) :
    Succeeds s (Session.transaction body) Q := by
  obtain ⟨a, t, hbody, hQ⟩ := h
  exact ⟨a, t, run_transaction_eq_ok.mpr hbody, hQ⟩

theorem of_yields {x : Session α} (h : Succeeds s x R) (hx : Yields s x Q) : Succeeds s x Q := by
  obtain ⟨a, t, hrun, -⟩ := h
  exact ⟨a, t, hrun, hx hrun⟩

end Succeeds

/-! ### Failure that is certain -/

/-- The steps fail on a store, and with this error. -/
def Fails (s : Store) (x : Session α) (e : Error) : Prop := ∃ t, x.run s = .error e t

namespace Fails

variable {e : Error}

theorem bind {x : Session α} {f : α → Session β} (h : Fails s x e) : Fails s (x >>= f) e := by
  obtain ⟨t, hx⟩ := h
  exact ⟨t, run_bind_eq_error.mpr (.inl hx)⟩

/-- What comes later fails when the steps before it have succeeded. -/
theorem later {x : Session α} {f : α → Session β}
    (h : Succeeds s x fun a t => Fails t (f a) e) : Fails s (x >>= f) e := by
  obtain ⟨a, t, hx, u, hf⟩ := h
  exact ⟨u, run_bind_eq_error.mpr (.inr ⟨a, t, hx, hf⟩)⟩

theorem transaction {body : Session α} (h : Fails s body e) :
    Fails s (Session.transaction body) e := ⟨s, run_transaction_eq_error.mpr ⟨h, rfl⟩⟩

theorem get {f : Store → Session β} (h : Fails s (f s) e) : Fails s (MonadState.get >>= f) e := h

theorem refused {x : Except Error α} {f : α → Session β} (h : x = .error e) :
    Fails s ((MonadLiftT.monadLift x : Session α) >>= f) e :=
  bind ⟨s, run_liftM_eq_error.mpr ⟨h, rfl⟩⟩

theorem liftM {x : Except Error α} {f : α → Session β} {a : α} (hx : x = .ok a)
    (h : Fails s (f a) e) : Fails s ((MonadLiftT.monadLift x : Session α) >>= f) e := by
  obtain ⟨t, hf⟩ := h
  exact ⟨t, run_bind_eq_error.mpr (.inr ⟨a, s, run_liftM_eq_ok.mpr ⟨hx, rfl⟩, hf⟩)⟩

theorem look {g : Store → Except Error α} {f : α → Session β} {a : α} (hg : g s = .ok a)
    (h : Fails s (f a) e) : Fails s (Session.look g >>= f) e := liftM hg h

theorem unseen {g : Store → Except Error α} {f : α → Session β} (h : g s = .error e) :
    Fails s (Session.look g >>= f) e := refused h

end Fails

/-! ### Failure that may come -/

/-- If the steps fail on a store, it is with such an error. -/
def MayFail (s : Store) (x : Session α) (E : Error → Prop) : Prop :=
  ∀ ⦃e t⦄, x.run s = .error e t → E e

namespace MayFail

variable {E : Error → Prop}

theorem mono {x : Session α} {F : Error → Prop} (h : MayFail s x E) (hEF : ∀ e, E e → F e) :
    MayFail s x F := fun e _ hrun => hEF e (h hrun)

theorem pure {a : α} : MayFail s (Pure.pure a) E := fun _ _ h => by cases h

theorem bind {x : Session α} {f : α → Session β} (hx : MayFail s x E)
    (hf : ∀ a t, x.run s = .ok a t → MayFail t (f a) E) : MayFail s (x >>= f) E := by
  intro e t hrun
  rcases run_bind_eq_error.mp hrun with hrun | ⟨a, u, hok, hrun⟩
  · exact hx hrun
  · exact hf a u hok hrun

theorem get {f : Store → Session β} (h : MayFail s (f s) E) :
    MayFail s (MonadState.get >>= f) E := h

theorem lift {x : Except Error α} (h : ∀ e, x = .error e → E e) :
    MayFail s (MonadLiftT.monadLift x : Session α) E :=
  fun e _ hrun => h e (run_liftM_eq_error.mp hrun).1

theorem liftM {x : Except Error α} {f : α → Session β} (hx : ∀ e, x = .error e → E e)
    (hf : ∀ a, x = .ok a → MayFail s (f a) E) :
    MayFail s ((MonadLiftT.monadLift x : Session α) >>= f) E := by
  refine bind (lift hx) fun a t hok => ?_
  obtain ⟨ha, rfl⟩ := run_liftM_eq_ok.mp hok
  exact hf a ha

theorem look {g : Store → Except Error α} {f : α → Session β} (hg : ∀ e, g s = .error e → E e)
    (hf : ∀ a, g s = .ok a → MayFail s (f a) E) : MayFail s (Session.look g >>= f) E :=
  liftM hg hf

theorem lookOnly {g : Store → Except Error α} (h : ∀ e, g s = .error e → E e) :
    MayFail s (Session.look g) E := lift h

theorem modify {change : Store → Store} : MayFail s (modify change : Session Unit) E :=
  fun _ _ h => by cases h

theorem write {allowed : Store → Prop} [DecidablePred allowed] {change : Store → Store}
    (h : E (.conflict .uniqueIndex)) : MayFail s (Session.write allowed change) E :=
  fun _ _ hrun => (run_write_eq_error.mp hrun).2.1 ▸ h

theorem answering {x : Session α} {answer : α → Answer} (h : MayFail s x E) :
    MayFail s (Session.answering answer x) E := bind h fun _ _ _ => pure

theorem silently {x : Session Unit} (h : MayFail s x E) : MayFail s (Session.silently x) E :=
  bind h fun _ _ _ => pure

theorem tell {answer : Store → Answer} : MayFail s (Session.tell answer) E := get pure

theorem transaction {body : Session α} (h : MayFail s body E) :
    MayFail s (Session.transaction body) E := fun _ _ hrun =>
  have ⟨_, hbody⟩ := (run_transaction_eq_error.mp hrun).1
  h hbody

end MayFail

/-! ### All or nothing -/

/-- Either the steps fail and leave the store they began with, or the result and the store after
them are as stated. -/
def Settles (s : Store) (x : Session α) (Q : α → Store → Prop) : Prop :=
  match x.run s with
  | .ok a t => Q a t
  | .error _ t => t = s

namespace Settles

variable {Q R : α → Store → Prop} {P : β → Store → Prop}

theorem intro {x : Session α} (hok : Yields s x Q)
    (herror : ∀ e t, x.run s = .error e t → t = s) : Settles s x Q := by
  rw [Settles]
  split
  · rename_i a t hrun
    exact hok hrun
  · rename_i e t hrun
    exact herror e t hrun

theorem yields {x : Session α} (h : Settles s x Q) : Yields s x Q := by
  intro a t hrun
  rw [Settles, hrun] at h
  exact h

theorem eq_of_error {x : Session α} {e : Error} {t : Store} (h : Settles s x Q)
    (hrun : x.run s = .error e t) : t = s := by
  rw [Settles, hrun] at h
  exact h

theorem mono {x : Session α} (h : Settles s x Q) (hQR : ∀ a t, Q a t → R a t) : Settles s x R :=
  intro (h.yields.mono hQR) fun _ _ hrun => h.eq_of_error hrun

theorem pure {a : α} (h : Q a s) : Settles s (Pure.pure a) Q := h

/-- What comes after a change must not fail any more. -/
theorem bind {x : Session α} {f : α → Session β}
    (h : Settles s x fun a t => Succeeds t (f a) P) : Settles s (x >>= f) P := by
  refine intro (.bind fun a t hx b u hf => ?_) fun e u hrun => ?_
  · obtain ⟨b', u', hf', hP⟩ := h.yields hx
    rw [hf'] at hf
    cases hf
    exact hP
  · rcases run_bind_eq_error.mp hrun with hx | ⟨a, t, hx, hf⟩
    · exact h.eq_of_error hx
    · obtain ⟨b', u', hf', -⟩ := h.yields hx
      rw [hf'] at hf
      cases hf

theorem liftM {x : Except Error α} {f : α → Session β} (h : ∀ a, x = .ok a → Settles s (f a) P) :
    Settles s ((MonadLiftT.monadLift x : Session α) >>= f) P := by
  refine intro (.liftM fun a hx => (h a hx).yields) fun e u hrun => ?_
  rcases run_bind_eq_error.mp hrun with hx | ⟨a, t, hx, hf⟩
  · exact (run_liftM_eq_error.mp hx).2
  · obtain ⟨hxa, rfl⟩ := run_liftM_eq_ok.mp hx
    exact (h a hxa).eq_of_error hf

theorem get {f : Store → Session β} (h : Settles s (f s) P) :
    Settles s (MonadState.get >>= f) P := h

theorem look {g : Store → Except Error α} {f : α → Session β}
    (h : ∀ a, g s = .ok a → Settles s (f a) P) : Settles s (Session.look g >>= f) P := liftM h

theorem lookOnly {g : Store → Except Error α} (h : ∀ a, g s = .ok a → Q a s) :
    Settles s (Session.look g) Q := by
  refine intro (fun a t hrun => ?_) fun e t hrun => (run_liftM_eq_error.mp hrun).2
  obtain ⟨hg, rfl⟩ := run_liftM_eq_ok.mp hrun
  exact h a hg

theorem modify {change : Store → Store} {Q : Unit → Store → Prop} (h : Q () (change s)) :
    Settles s (modify change : Session Unit) Q := h

theorem write {allowed : Store → Prop} [DecidablePred allowed] {change : Store → Store}
    {Q : Unit → Store → Prop} (h : allowed s → Q () (change s)) :
    Settles s (Session.write allowed change) Q := by
  by_cases hallowed : allowed s
  · simpa [Settles, Session.write, EStateM.run, hallowed] using h hallowed
  · simp [Settles, Session.write, EStateM.run, hallowed]

theorem transaction {body : Session α} (h : Yields s body Q) :
    Settles s (Session.transaction body) Q :=
  intro (fun _ _ hrun => h (run_transaction_eq_ok.mp hrun)) fun _ _ hrun =>
    eq_of_run_transaction_eq_error hrun

end Settles

/-! ### Invariants -/

/-- Whenever the steps succeed, the property holds after them if it held before. -/
def Keeps (I : Store → Prop) (x : Session α) : Prop := ∀ s, I s → Yields s x fun _ => I

namespace Keeps

variable {I : Store → Prop}

theorem pure (a : α) : Keeps I (Pure.pure a : Session α) := fun _ hs => .pure hs

theorem get {f : Store → Session β} (h : ∀ s, Keeps I (f s)) : Keeps I (MonadState.get >>= f) :=
  fun s hs => .get (h s s hs)

theorem liftM {x : Except Error α} {f : α → Session β} (h : ∀ a, Keeps I (f a)) :
    Keeps I ((MonadLiftT.monadLift x : Session α) >>= f) := fun s hs => .liftM fun a _ => h a s hs

theorem modify {change : Store → Store} (h : ∀ s, I s → I (change s)) :
    Keeps I (modify change : Session Unit) := fun s hs => .modify (h s hs)

theorem write {allowed : Store → Prop} [DecidablePred allowed] {change : Store → Store}
    (h : ∀ s, allowed s → I s → I (change s)) : Keeps I (Session.write allowed change) :=
  fun s hs => .write fun hallowed => h s hallowed hs

theorem bind {x : Session α} {f : α → Session β} (hx : Keeps I x) (hf : ∀ a, Keeps I (f a)) :
    Keeps I (x >>= f) := fun s hs => .bind fun a _ hrun => hf a _ (hx s hs hrun)

end Keeps

end RecordStore.Session

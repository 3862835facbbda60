import Tcam.Proofs.Device.Execute
import Tcam.Table.Command

/-!
# How sessions end

`Session.Ends` describes the outcome of a session, a result or an error, together
with the state it leaves.  It also says that a ready device stays ready and that
the hardware does not break the session off then.  The rules follow the way
sessions are built, so that each operation needs one pass for its results, its
failures and its progress.  `Transaction.Ends` says the same of an operation that
takes the lock of the table.
-/

namespace Tcam

namespace Session

variable {g : Geometry} {α β : Type} {limit : Nat}

section Runs

variable {σ : Type} {m : Session σ α} {f : α → Session σ β} {s s' : Table.State σ}

theorem tryCatch_of_ok {a : α} (h : m s = .ok a s') (handle : Error → Session σ α) :
    MonadExcept.tryCatch m handle s = .ok a s' := by
  change EStateM.tryCatch m handle s = _
  unfold EStateM.tryCatch
  rw [h]

/-- A handler starts in the state that the error left. -/
theorem tryCatch_of_error {e : Error} (h : m s = .error e s') (handle : Error → Session σ α) :
    MonadExcept.tryCatch m handle s = handle e s' := by
  change EStateM.tryCatch m handle s = _
  unfold EStateM.tryCatch
  rw [h]
  rfl

end Runs

/-- Run in `s`, the session gives a result with `Q` or breaks off with `E`.  A
ready device stays ready, and its session breaks off for no reason of the
hardware. -/
def Ends (limit : Nat) (m : Session (Device g) α) (s : Table.State (Device g))
    (Q : α → Table.State (Device g) → Prop) (E : Error → Table.State (Device g) → Prop) : Prop :=
  match m s with
  | .ok a s' => (s.bus.Ready limit → s'.bus.Ready limit) ∧ Q a s'
  | .error e s' =>
    (s.bus.Ready limit → s'.bus.Ready limit ∧ e.isRetryable = false) ∧ E e s'

section Rules

variable {m : Session (Device g) α} {f : α → Session (Device g) β} {s : Table.State (Device g)}
  {Q : α → Table.State (Device g) → Prop} {E : Error → Table.State (Device g) → Prop}
  {Q' : β → Table.State (Device g) → Prop} {F : Error → Table.State (Device g) → Prop}

theorem Ends.pure {a : α} (h : Q a s) : Ends limit (Pure.pure a) s Q E :=
  ⟨id, h⟩

theorem Ends.throw {e : Error} (he : e.isRetryable = false) (h : E e s) :
    Ends limit (MonadExcept.throw e) s Q E :=
  ⟨fun hready => ⟨hready, he⟩, h⟩

theorem Ends.mono {Q₁ : α → Table.State (Device g) → Prop}
    (h : Ends limit m s Q₁ F) (hQ : ∀ a s', Q₁ a s' → Q a s') (hE : ∀ e s', F e s' → E e s') :
    Ends limit m s Q E := by
  unfold Ends at h ⊢
  cases hm : m s with
  | ok a s' =>
      rw [hm] at h
      exact ⟨h.1, hQ a s' h.2⟩
  | error e s' =>
      rw [hm] at h
      exact ⟨h.1, hE e s' h.2⟩

theorem Ends.of_ok {a : α} {s' : Table.State (Device g)} (h : Ends limit m s Q E)
    (hm : m s = .ok a s') : Q a s' := by
  unfold Ends at h
  rw [hm] at h
  exact h.2

theorem Ends.of_error {e : Error} {s' : Table.State (Device g)} (h : Ends limit m s Q E)
    (hm : m s = .error e s') : E e s' := by
  unfold Ends at h
  rw [hm] at h
  exact h.2

/-- A ready device does not break a session off. -/
theorem Ends.ok_of_ready (h : Ends limit m s Q fun e _ => e.isRetryable = true)
    (hready : s.bus.Ready limit) : ∃ a s', m s = .ok a s' ∧ Q a s' := by
  unfold Ends at h
  cases hm : m s with
  | ok a s' =>
      rw [hm] at h
      exact ⟨a, s', rfl, h.2⟩
  | error e s' =>
      rw [hm] at h
      exact nomatch (h.1 hready).2.symm.trans h.2

/-- First `m`, then `f`: either may break off. -/
theorem Ends.bind (h : Ends limit m s Q F) (hE : ∀ e s', F e s' → E e s')
    (hf : ∀ a s', Q a s' → Ends limit (f a) s' Q' E) : Ends limit (m >>= f) s Q' E := by
  unfold Ends at h
  have hbind : (m >>= f) s = EStateM.bind m f s := rfl
  cases hm : m s with
  | ok a s' =>
      rw [hm] at h
      have hnext := hf a s' h.2
      unfold Ends at hnext ⊢
      rw [hbind, EStateM.bind, hm]
      cases hfs : f a s' with
      | ok b s'' =>
          simp only [hfs] at hnext ⊢
          exact ⟨fun hready => hnext.1 (h.1 hready), hnext.2⟩
      | error e s'' =>
          simp only [hfs] at hnext ⊢
          exact ⟨fun hready => hnext.1 (h.1 hready), hnext.2⟩
  | error e s' =>
      rw [hm] at h
      unfold Ends
      rw [hbind, EStateM.bind, hm]
      exact ⟨h.1, hE e s' h.2⟩

theorem Ends.map {h : α → β} (hm : Ends limit m s Q E) :
    Ends limit (do return h (← m)) s (fun b s' => ∃ a, b = h a ∧ Q a s') E :=
  hm.bind (fun _ _ he => he) fun a _ hq => Ends.pure ⟨a, rfl, hq⟩

/-- First a check that does not concern the hardware. -/
theorem Ends.check {x : Except Error α}
    (herror : ∀ e, x = .error e → e.isRetryable = false ∧ E e s)
    (hok : ∀ a, x = .ok a → Ends limit (f a) s Q' E) :
    Ends limit (ofExcept x >>= f) s Q' E := by
  cases x with
  | ok a => exact hok a rfl
  | error e => exact ⟨fun hready => ⟨hready, (herror e rfl).1⟩, (herror e rfl).2⟩

/-- A miss is answered, every other error is passed on. -/
theorem Ends.catchMiss {onMiss : Session (Device g) α}
    (h : Ends limit m s Q F) (hmiss : ∀ i s', F (.notFound i) s' → Ends limit onMiss s' Q E)
    (hrest : ∀ e s', F e s' → (∀ i, e ≠ .notFound i) → E e s') :
    Ends limit (MonadExcept.tryCatch m fun
      | .notFound _ => onMiss
      | e => MonadExcept.throw e) s Q E := by
  unfold Ends at h
  -- The handler is looked at only once `m` has failed.
  cases hm : m s with
  | ok a s' =>
      rw [hm] at h
      unfold Ends
      rw [tryCatch_of_ok hm]
      exact h
  | error e s' =>
      rw [hm] at h
      unfold Ends
      rw [tryCatch_of_error hm]
      cases e with
      | notFound i =>
          have hnext := hmiss i s' h.2
          unfold Ends at hnext
          change match onMiss s' with
            | .ok a s' => _
            | .error e s' => _
          cases hs : onMiss s' with
          | ok a s'' =>
              rw [hs] at hnext
              exact ⟨fun hready => hnext.1 (h.1 hready).1, hnext.2⟩
          | error e s'' =>
              rw [hs] at hnext
              exact ⟨fun hready => hnext.1 (h.1 hready).1, hnext.2⟩
      | invalidArgument => exact ⟨h.1, hrest _ s' h.2 (fun _ hmiss => by cases hmiss)⟩
      | busyTimeout => exact ⟨h.1, hrest _ s' h.2 (fun _ hmiss => by cases hmiss)⟩
      | transport => exact ⟨h.1, hrest _ s' h.2 (fun _ hmiss => by cases hmiss)⟩
      | lockPoisoned => exact ⟨h.1, hrest _ s' h.2 (fun _ hmiss => by cases hmiss)⟩
      | config => exact ⟨h.1, hrest _ s' h.2 (fun _ hmiss => by cases hmiss)⟩

end Rules

section Loops

variable {s : Table.State (Device g)} {E : Error → Table.State (Device g) → Prop}

/-- A loop over the numbers below `n` that carries a value.  `I i` holds before
the turn of `i`. -/
theorem Ends.foldlM_range {f : β → Nat → Session (Device g) β} {n : Nat} {b : β}
    {I : Nat → β → Table.State (Device g) → Prop}
    (hstep : ∀ i < n, ∀ b s', I i b s' → Ends limit (f b i) s' (I (i + 1)) E)
    (hinit : I 0 b s) : Ends limit ((List.range n).foldlM f b) s (I n) E := by
  -- The induction is on what is left of the loop.
  have htail : ∀ count start b s', start + count = n → I start b s' →
      Ends limit ((List.range' start count).foldlM f b) s' (I n) E := by
    intro count
    induction count with
    | zero =>
        intro start b s' hend hI
        obtain rfl : start = n := hend
        exact Ends.pure hI
    | succ count ih =>
        intro start b s' hend hI
        rw [List.range'_succ, List.foldlM_cons]
        refine (hstep start (by omega) b s' hI).bind (fun _ _ he => he) ?_
        intro b' s'' hI'
        exact ih (start + 1) b' s'' (by omega) hI'
  rw [List.range_eq_range']
  exact htail n 0 b s (Nat.zero_add n) hinit

/-- A loop over the numbers below `n`. -/
theorem Ends.forM_range {f : Nat → Session (Device g) Unit} {n : Nat}
    {I : Nat → Table.State (Device g) → Prop}
    (hstep : ∀ i < n, ∀ s', I i s' → Ends limit (f i) s' (fun _ => I (i + 1)) E)
    (hinit : I 0 s) : Ends limit ((List.range n).forM f) s (fun _ => I n) E := by
  have htail : ∀ count start s', start + count = n → I start s' →
      Ends limit ((List.range' start count).forM f) s' (fun _ => I n) E := by
    intro count
    induction count with
    | zero =>
        intro start s' hend hI
        obtain rfl : start = n := hend
        exact Ends.pure hI
    | succ count ih =>
        intro start s' hend hI
        rw [List.range'_succ]
        change Ends limit (f start >>= fun _ => (List.range' (start + 1) count).forM f) s' _ E
        refine (hstep start (by omega) s' hI).bind (fun _ _ he => he) ?_
        intro _ s'' hI'
        exact ih (start + 1) s'' (by omega) hI'
  rw [List.range_eq_range']
  exact htail n 0 s (Nat.zero_add n) hinit

end Loops

end Session

namespace Transaction

variable {g : Geometry} {α β : Type} {limit : Nat} {l : Lock (Table.State (Device g))}

/-- Run on `l`, the transaction gives a result with `Q` or breaks off with `E`,
and it does not poison the lock.  Readiness is as for sessions. -/
def Ends (limit : Nat) (m : Transaction (Device g) α) (l : Lock (Table.State (Device g)))
    (Q : α → Table.State (Device g) → Prop) (E : Error → Table.State (Device g) → Prop) : Prop :=
  match m l with
  | .ok a l' =>
    l'.poisoned = false ∧ (l.content.bus.Ready limit → l'.content.bus.Ready limit) ∧
      Q a l'.content
  | .error e l' =>
    l'.poisoned = false ∧
      (l.content.bus.Ready limit → l'.content.bus.Ready limit ∧ e.isRetryable = false) ∧
        E e l'.content

variable {m : Transaction (Device g) α} {Q : α → Table.State (Device g) → Prop}
  {E : Error → Table.State (Device g) → Prop} {Q' : β → Table.State (Device g) → Prop}

theorem Ends.mono {Q₁ : α → Table.State (Device g) → Prop}
    {F : Error → Table.State (Device g) → Prop} (h : Ends limit m l Q₁ F)
    (hQ : ∀ a s', Q₁ a s' → Q a s') (hE : ∀ e s', F e s' → E e s') : Ends limit m l Q E := by
  unfold Ends at h ⊢
  cases hm : m l with
  | ok a l' =>
      rw [hm] at h
      exact ⟨h.1, h.2.1, hQ a _ h.2.2⟩
  | error e l' =>
      rw [hm] at h
      exact ⟨h.1, h.2.1, hE e _ h.2.2⟩

/-- A session with the table locked. -/
theorem Ends.locked {op : Session (Device g) α} (hl : l.poisoned = false)
    (h : Session.Ends limit op l.content (fun a s' => Q a { s' with phase := .idle })
      (fun e s' => E e { s' with phase := .idle })) : Ends limit op.locked l Q E := by
  unfold Session.Ends at h
  unfold Ends Session.locked Lock.hold
  rw [hl]
  cases hop : op l.content with
  | ok a s' =>
      simp only [hop] at h ⊢
      exact ⟨rfl, h⟩
  | error e s' =>
      simp only [hop] at h ⊢
      exact ⟨rfl, h⟩

/-- A transaction has a result or an error. -/
theorem Ends.cases (h : Ends limit m l Q E) :
    (∃ a l', m l = .ok a l' ∧ l'.poisoned = false ∧
        (l.content.bus.Ready limit → l'.content.bus.Ready limit) ∧ Q a l'.content) ∨
      ∃ e l', m l = .error e l' ∧ l'.poisoned = false ∧
        (l.content.bus.Ready limit → l'.content.bus.Ready limit ∧ e.isRetryable = false) ∧
          E e l'.content := by
  unfold Ends at h
  cases hm : m l with
  | ok a l' =>
      rw [hm] at h
      exact Or.inl ⟨a, l', rfl, h⟩
  | error e l' =>
      rw [hm] at h
      exact Or.inr ⟨e, l', rfl, h⟩

/-- First a check that does not take the lock. -/
theorem Ends.check {x : Except Error α} {f : α → Transaction (Device g) β}
    (hl : l.poisoned = false) (herror : ∀ e, x = .error e → e.isRetryable = false ∧ E e l.content)
    (hok : ∀ a, x = .ok a → Ends limit (f a) l Q' E) :
    Ends limit (ofExcept x >>= f) l Q' E := by
  cases x with
  | ok a => exact hok a rfl
  | error e => exact ⟨hl, fun hready => ⟨hready, (herror e rfl).1⟩, (herror e rfl).2⟩

theorem Ends.map {h : α → β} (hm : Ends limit m l Q E) :
    Ends limit (do return h (← m)) l (fun b s' => ∃ a, b = h a ∧ Q a s') E := by
  unfold Ends at hm ⊢
  change match EStateM.bind m (fun a => pure (h a)) l with
    | .ok b l' => _
    | .error e l' => _
  unfold EStateM.bind
  cases hrun : m l with
  | ok a l' =>
      rw [hrun] at hm
      exact ⟨hm.1, hm.2.1, a, rfl, hm.2.2⟩
  | error e l' =>
      rw [hrun] at hm
      exact hm

/-- What the transaction leaves behind, whether it succeeds or not. -/
def after {σ : Type} (m : Transaction σ α) (l : Lock (Table.State σ)) : Lock (Table.State σ) :=
  match m l with
  | .ok _ l' => l'
  | .error _ l' => l'

/-- What the transaction answers. -/
def result {σ : Type} (m : Transaction σ α) (l : Lock (Table.State σ)) : Except Error α :=
  match m l with
  | .ok a _ => .ok a
  | .error e _ => .error e

theorem after_map {σ : Type} (m : Transaction σ α) (f : α → β) (l : Lock (Table.State σ)) :
    (do return f (← m) : Transaction σ β).after l = m.after l := by
  change after (EStateM.bind m fun a => pure (f a)) l = _
  unfold after EStateM.bind
  cases m l with
  | ok a l' => rfl
  | error e l' => rfl

theorem eq_of_result_eq_error {σ : Type} {m : Transaction σ α} {l : Lock (Table.State σ)}
    {e : Error} (h : m.result l = .error e) : m l = .error e (m.after l) := by
  unfold result at h
  unfold after
  cases hm : m l with
  | ok a l' =>
      rw [hm] at h
      exact nomatch h
  | error e' l' =>
      rw [hm] at h
      rw [Except.error.inj h]

theorem Ends.after {P : Table.State (Device g) → Prop}
    (h : Ends limit m l (fun _ s' => P s') (fun _ s' => P s')) :
    (m.after l).poisoned = false ∧ P (m.after l).content := by
  unfold Ends at h
  unfold Transaction.after
  cases hrun : m l with
  | ok a l' =>
      rw [hrun] at h
      exact ⟨h.1, h.2.2⟩
  | error e l' =>
      rw [hrun] at h
      exact ⟨h.1, h.2.2⟩

end Transaction

end Tcam

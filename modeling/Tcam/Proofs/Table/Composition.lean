import Tcam.Proofs.Table.Refinement

/-!
# What the operations of a table are made of

Operations work over any bus, and they are put together in few ways: one after
the other, with a miss answered, and with the table idle afterwards.  `Composed`
is the collection of everything that can be built so from given parts.  What
holds of the parts and is kept by these ways holds of every operation.  There are
two levels: the five basic operations are composed of register accesses
(`composed_of_basic`), and all others of basic operations.
-/

namespace Tcam

/-- A session over a bus of any kind. -/
abbrev Script (α : Type) : Type 1 :=
  (σ : Type) → [RegisterBus σ] → Session σ α

/-- The outcome with another state. -/
def mapState {ε σ σ' α : Type} (f : σ → σ') : EStateM.Result ε σ α → EStateM.Result ε σ' α
  | .ok a s => .ok a (f s)
  | .error e s => .error e (f s)

/-- The state that an outcome leaves. -/
def endState {ε σ α : Type} : EStateM.Result ε σ α → σ
  | .ok _ s => s
  | .error _ s => s

@[simp]
theorem endState_mapState {ε σ σ' α : Type} (f : σ → σ') (r : EStateM.Result ε σ α) :
    endState (mapState f r) = f (endState r) := by
  cases r <;> rfl

theorem mapState_mapState {ε σ₁ σ₂ σ₃ α : Type} (f : σ₂ → σ₃) (f' : σ₁ → σ₂)
    (r : EStateM.Result ε σ₁ α) : mapState f (mapState f' r) = mapState (fun s => f (f' s)) r := by
  cases r <;> rfl

/-- A session after which the table is idle. -/
def Session.settled {σ α : Type} (m : Session σ α) : Session σ α := fun s =>
  match m s with
  | .ok a s => .ok a { s with phase := .idle }
  | .error e s => .error e { s with phase := .idle }

theorem mapState_injective {ε σ σ' α : Type} {f : σ → σ'} (hf : Function.Injective f) :
    Function.Injective (mapState f : EStateM.Result ε σ α → EStateM.Result ε σ' α) := by
  intro r r' h
  cases r with
  | ok a s =>
      cases r' with
      | ok a' s' =>
          obtain ⟨rfl, hs⟩ := EStateM.Result.ok.inj h
          rw [hf hs]
      | error e s' => exact nomatch h
  | error e s =>
      cases r' with
      | ok a' s' => exact nomatch h
      | error e' s' =>
          obtain ⟨rfl, hs⟩ := EStateM.Result.error.inj h
          rw [hf hs]

theorem Session.settled_eq {σ α : Type} (m : Session σ α) (s : Table.State σ) :
    m.settled s = mapState (fun s' => { s' with phase := .idle }) (m s) := by
  unfold Session.settled
  cases m s <;> rfl

theorem Session.Ends.settled {g : Geometry} {α : Type} {limit : Nat} {m : Session (Device g) α}
    {s : Table.State (Device g)} {Q : α → Table.State (Device g) → Prop}
    {E : Error → Table.State (Device g) → Prop}
    (h : Ends limit m s (fun a s' => Q a { s' with phase := .idle })
      (fun e s' => E e { s' with phase := .idle })) : Ends limit m.settled s Q E := by
  unfold Ends at h ⊢
  unfold Session.settled
  cases hm : m s with
  | ok a s' =>
      simp only [hm] at h ⊢
      exact h
  | error e s' =>
      simp only [hm] at h ⊢
      exact h

/-- The sessions that are put together from parts in `B`. -/
inductive Composed (B : ⦃α : Type⦄ → Script α → Prop) : ⦃α : Type⦄ → Script α → Prop
  | part {α : Type} {m : Script α} (h : B m) : Composed B m
  | pure {α : Type} (a : α) : Composed B fun _ => Pure.pure a
  | bind {α β : Type} {m : Script α} {f : α → Script β} (hm : Composed B m)
      (hf : ∀ a, Composed B (f a)) : Composed B fun σ => m σ >>= fun a => f a σ
  | catchMiss {α : Type} {m onMiss : Script α} (hm : Composed B m) (hmiss : Composed B onMiss) :
      Composed B fun σ => MonadExcept.tryCatch (m σ) fun
        | .notFound _ => onMiss σ
        | e => MonadExcept.throw e
  | settled {α : Type} {m : Script α} (hm : Composed B m) : Composed B fun σ => (m σ).settled

namespace Composed

variable {B B' : ⦃α : Type⦄ → Script α → Prop} {α β ι : Type}

/-- The parts may be composed themselves. -/
theorem trans {m : Script α} (h : Composed B m)
    (hB : ∀ ⦃α : Type⦄ (m : Script α), B m → Composed B' m) : Composed B' m := by
  induction h with
  | part h => exact hB _ h
  | pure a => exact .pure a
  | bind _ _ ihm ihf => exact .bind ihm ihf
  | catchMiss _ _ ihm ihmiss => exact .catchMiss ihm ihmiss
  | settled _ ih => exact .settled ih

theorem map {m : Script α} (f : α → β) (h : Composed B m) :
    Composed B fun σ => do return f (← m σ) :=
  .bind h fun a => .pure (f a)

/-- A check that refuses by a part. -/
theorem check {x : Except Error α} {f : α → Script β}
    (hx : ∀ e, x = .error e → B (α := α) fun _ => MonadExcept.throw e)
    (hf : ∀ a, Composed B (f a)) : Composed B fun σ => ofExcept x >>= fun a => f a σ := by
  cases x with
  | ok a => exact hf a
  | error e => exact .bind (.part (hx e rfl)) hf

theorem ite {c : Prop} [Decidable c] {m m' : Script α} (hm : Composed B m) (hm' : Composed B m') :
    Composed B fun σ => if c then m σ else m' σ := by
  split
  · exact hm
  · exact hm'

theorem forM {f : ι → Script Unit} {l : List ι} (hf : ∀ i ∈ l, Composed B (f i)) :
    Composed B fun σ => l.forM fun i => f i σ := by
  induction l with
  | nil => exact .pure ()
  | cons i l ih =>
      obtain ⟨hi, hl⟩ := List.forall_mem_cons.mp hf
      exact .bind hi fun _ => ih hl

theorem foldlM {f : β → ι → Script β} (hf : ∀ b i, Composed B (f b i)) (l : List ι) (b : β) :
    Composed B fun σ => l.foldlM (fun b i => f b i σ) b := by
  induction l generalizing b with
  | nil => exact .pure b
  | cons i l ih =>
      simp only [List.foldlM_cons]
      exact .bind (hf b i) ih

theorem mapM {f : ι → Script β} (hf : ∀ i, Composed B (f i)) (l : List ι) :
    Composed B fun σ => l.mapM fun i => f i σ := by
  induction l with
  | nil => exact .pure []
  | cons i l ih =>
      simp only [List.mapM_cons]
      exact .bind (hf i) fun b => .bind ih fun bs => .pure (b :: bs)

end Composed

namespace Table

open Session (onBus)

variable {t : Table}

/-! ## Basic operations as register accesses -/

/-- The smallest parts of a session.  The extension register is written by the
selection of the sub-block only, and only accesses report transport errors. -/
inductive Step (t : Table) : ⦃α : Type⦄ → Script α → Prop
  | read (offset : RegOffset) : Step t fun _ => t.readRegister offset
  | write (offset : RegOffset) (value : Word) (h : offset ≠ extensionRegister) :
      Step t fun _ => t.writeRegister offset value
  | select : Step t fun _ => t.selectActionSubBlock
  | count (f : Stats → Stats) (h : ∀ s, (f s).transportErrors = s.transportErrors) :
      Step t fun _ => Session.count f
  | enter (phase : Phase) : Step t fun _ => Session.enter phase
  | throw {α : Type} (e : Error) (h : ∀ cause, e ≠ .transport cause) :
      Step t (α := α) fun _ => MonadExcept.throw e

theorem poll_eq {σ : Type} [RegisterBus σ] (n : Nat) :
    (t.poll (n + 1) : Session σ Unit) = t.readRegister operationRegister >>= fun word =>
      if (busyField.get word : Word) = 0#16 then pure () else t.poll n := by
  rw [poll, RegisterBus.readField, onBus_bind, bind_assoc]
  rfl

theorem composed_poll (n : Nat) : Composed t.Step fun _ => t.poll n := by
  induction n with
  | zero => exact .bind (.part (.count _ fun _ => rfl)) fun _ => .part (.throw _ fun _ => nofun)
  | succ n ih =>
      simp only [poll_eq]
      exact .bind (.part (.read operationRegister)) fun _ => .ite (.pure ()) ih

theorem command_eq {σ : Type} [RegisterBus σ] (opcode : Opcode) (page : Page) (index : SlotIndex) :
    (t.command opcode page index : Session σ Unit) = (t.issue ⟨opcode, page, index⟩).settled := by
  funext s
  unfold command Session.settled
  cases t.issue ⟨opcode, page, index⟩ s with
  | ok u s' => rfl
  | error e s' => rfl

theorem composed_command (opcode : Opcode) (page : Page) (index : SlotIndex) :
    Composed t.Step fun _ => t.command opcode page index := by
  simp only [command_eq]
  refine .settled (.bind (.part (.enter .awaitingBusy)) fun _ => ?_)
  refine .bind (composed_poll t.pollLimit) fun _ => ?_
  refine .bind (.part (.write operationRegister _ (by decide))) fun _ => ?_
  exact .bind (.part (.enter .commandIssued)) fun _ => composed_poll t.pollLimit

theorem composed_writePage {n : Nat} (hn : n ≤ dataRegisters) (page : Registers n) :
    Composed t.Step fun _ => t.writePage page := by
  refine Composed.forM fun i hi => .part (.write _ _ ?_)
  have hlt := Nat.lt_of_lt_of_le (List.mem_range.mp hi) hn
  exact (Device.dataRegister_spec hlt).2.1

theorem composed_readPage (n : Nat) : Composed t.Step fun _ => t.readPage n := by
  refine Composed.foldlM (fun (page : Registers n) i => ?_) (List.range n) 0#_
  exact .bind (.part (.read (dataRegister i))) fun word => .pure (page.set i word)

theorem composed_loadPage (slot : SlotIndex) (page : Page) (image : SlotImage) :
    Composed t.Step fun _ => t.loadPage slot page image :=
  .bind (composed_writePage page.registers_le _) fun _ => composed_command _ _ _

theorem composed_fetchPage (slot : SlotIndex) (page : Page) :
    Composed t.Step fun _ => t.fetchPage slot page :=
  .bind (composed_command _ _ _) fun _ => composed_readPage _

theorem composed_registersAreZero (l : List Nat) :
    Composed t.Step fun _ => t.registersAreZero l := by
  induction l with
  | nil => exact .pure true
  | cons i l ih => exact .bind (.part (.read _)) fun _ => .ite ih (.pure false)

theorem step_of_isRefusal {α : Type} {e : Error} (h : e.IsRefusal) :
    t.Step (α := α) fun _ => MonadExcept.throw e := by
  obtain ⟨cause, rfl⟩ := h
  exact .throw _ fun _ => nofun

theorem composed_flushAll : Composed t.Step fun _ => t.flushAll :=
  .bind (composed_command _ _ _) fun _ => .part (.count _ fun _ => rfl)

theorem composed_flushEntry (slot : SlotIndex) : Composed t.Step fun _ => t.flushEntry slot := by
  refine .check (fun _ h => step_of_isRefusal (Geometry.isRefusal_of_checkSlot h)) fun _ => ?_
  exact .bind (composed_command _ _ _) fun _ => .part (.count _ fun _ => rfl)

theorem composed_loadEntry (slot : SlotIndex) (entry : Entry) :
    Composed t.Step fun _ => t.loadEntry slot entry := by
  simp only [loadEntry_eq]
  refine .check (fun _ h => step_of_isRefusal (Geometry.isRefusal_of_checkSlot h)) fun _ => ?_
  refine .check (fun _ h => step_of_isRefusal (Entry.isRefusal_of_check h)) fun _ => ?_
  refine .bind (.part .select) fun _ => ?_
  refine .bind (.forM fun page _ => composed_loadPage slot page _) fun _ => ?_
  exact .part (.count _ fun _ => rfl)

theorem composed_readEntry (slot : SlotIndex) : Composed t.Step fun _ => t.readEntry slot := by
  simp only [readEntry_eq]
  refine .check (fun _ h => step_of_isRefusal (Geometry.isRefusal_of_checkSlot h)) fun _ => ?_
  refine .bind (composed_fetchPage slot .key) fun key => ?_
  refine .bind (.ite (composed_fetchPage slot .window) (.pure _)) fun window => ?_
  refine .bind (.part .select) fun _ => ?_
  refine .bind (composed_fetchPage slot .action) fun action => ?_
  exact .bind (.part (.count _ fun _ => rfl)) fun _ => .pure _

theorem composed_getNextEntry (slot : SlotIndex) :
    Composed t.Step fun _ => t.getNextEntry slot := by
  simp only [getNextEntry_eq]
  refine .check (fun _ h => step_of_isRefusal (isRefusal_of_checkStart h)) fun _ => ?_
  refine .bind (composed_command _ _ _) fun _ => ?_
  refine .bind (.part (.count _ fun _ => rfl)) fun _ => ?_
  refine .bind (.part (.read operationRegister)) fun word => ?_
  refine .bind (.ite (composed_registersAreZero _) (.pure false)) fun miss => ?_
  exact .ite (.part (.throw _ fun _ => nofun)) (composed_readEntry _)

/-! ## Operations as basic operations -/

/-- The operations that are not composed of others. -/
inductive Basic (t : Table) : ⦃α : Type⦄ → Script α → Prop
  | flushAll : Basic t fun _ => t.flushAll
  | flushEntry (slot : SlotIndex) : Basic t fun _ => t.flushEntry slot
  | loadEntry (slot : SlotIndex) (entry : Entry) : Basic t fun _ => t.loadEntry slot entry
  | readEntry (slot : SlotIndex) : Basic t fun _ => t.readEntry slot
  | getNextEntry (slot : SlotIndex) : Basic t fun _ => t.getNextEntry slot
  | throw {α : Type} (e : Error) (h : e.isRetryable = false) :
      Basic t (α := α) fun _ => MonadExcept.throw e

theorem composed_of_basic {α : Type} {m : Script α} (h : Composed t.Basic m) :
    Composed t.Step m := by
  refine h.trans fun α m h => ?_
  cases h with
  | flushAll => exact composed_flushAll
  | flushEntry slot => exact composed_flushEntry slot
  | loadEntry slot entry => exact composed_loadEntry slot entry
  | readEntry slot => exact composed_readEntry slot
  | getNextEntry slot => exact composed_getNextEntry slot
  | throw e h =>
      refine .part (.throw e ?_)
      rintro cause rfl
      exact nomatch h

theorem basic_of_isRefusal {α : Type} {e : Error} (h : e.IsRefusal) :
    t.Basic (α := α) fun _ => MonadExcept.throw e :=
  .throw e h.not_retryable

theorem basic_findEntry (slot : SlotIndex) : Composed t.Basic fun _ => t.findEntry slot := by
  refine .check (fun _ h => basic_of_isRefusal (Geometry.isRefusal_of_checkSlot h)) fun _ => ?_
  refine .bind (.catchMiss (.part (.getNextEntry _)) (.part (.throw (.notFound slot) rfl)))
    fun found => ?_
  exact .ite (.pure found) (.part (.throw _ rfl))

theorem basic_updatePorts (slot : SlotIndex) (port : Octet)
    (update : Masked PortVector → Masked PortVector) :
    Composed t.Basic fun _ => t.updatePorts slot port update := by
  unfold updatePorts
  refine .ite (.bind (.part (.throw _ rfl)) fun _ => ?_) ?_
  · exact .bind (basic_findEntry slot) fun found => .part (.loadEntry _ _)
  · exact .bind (basic_findEntry slot) fun found => .part (.loadEntry _ _)

/-- Every request is composed of basic operations. -/
theorem basic_request (r : Request) : Composed t.Basic fun _ => r.session t := by
  cases r with
  | flushAll => exact .bind (.part .flushAll) fun _ => .pure _
  | flushEntry slot => exact .bind (.part (.flushEntry slot)) fun _ => .pure _
  | loadEntry slot entry => exact .bind (.part (.loadEntry slot entry)) fun _ => .pure _
  | readEntry slot => exact .bind (.part (.readEntry slot)) fun _ => .pure _
  | getNextEntry slot => exact .bind (.part (.getNextEntry slot)) fun _ => .pure _
  | findEntry slot => exact .bind (basic_findEntry slot) fun _ => .pure _
  | addPort slot port => exact .bind (basic_updatePorts slot port _) fun _ => .pure _
  | removePort slot port => exact .bind (basic_updatePorts slot port _) fun _ => .pure _

/-! ## What all operations keep -/

section Within

open Session (Ends)

variable {α β : Type} {R : Device t.geometry → Device t.geometry → Prop}

/-- However the session ends, it has changed the device as `R` allows. -/
def Within (t : Table) (R : Device t.geometry → Device t.geometry → Prop)
    (m : Session (Device t.geometry) α) : Prop :=
  ∀ s, Ends t.pollLimit m s (fun _ s' => R s.bus s'.bus) (fun _ s' => R s.bus s'.bus)

section Rules

variable {m : Session (Device t.geometry) α} (htrans : ∀ d₁ d₂ d₃, R d₁ d₂ → R d₂ d₃ → R d₁ d₃)

include htrans

theorem Within.bind {f : α → Session (Device t.geometry) β} (hm : t.Within R m)
    (hf : ∀ a, t.Within R (f a)) : t.Within R (m >>= f) := by
  refine fun s => (hm s).bind (fun _ _ h => h) fun a s₁ h₁ => ?_
  have htail (e : Device t.geometry) := htrans s.bus s₁.bus e h₁
  exact (hf a s₁).mono (fun _ s' => htail s'.bus) (fun _ s' => htail s'.bus)

theorem Within.catchMiss {onMiss : Session (Device t.geometry) α} (hm : t.Within R m)
    (hmiss : t.Within R onMiss) :
    t.Within R (MonadExcept.tryCatch m fun
      | .notFound _ => onMiss
      | e => MonadExcept.throw e) := by
  refine fun s => (hm s).catchMiss (fun _ s₁ h₁ => ?_) (fun _ _ h _ => h)
  have htail (e : Device t.geometry) := htrans s.bus s₁.bus e h₁
  exact (hmiss s₁).mono (fun _ s' => htail s'.bus) (fun _ s' => htail s'.bus)

end Rules

theorem Within.map {m : Session (Device t.geometry) α} (hm : t.Within R m) (f : α → β) :
    t.Within R (do return f (← m)) :=
  fun s => (hm s).map.mono (fun _ _ ⟨_, _, h⟩ => h) (fun _ _ h => h)

theorem Within.mono {R' : Device t.geometry → Device t.geometry → Prop}
    {m : Session (Device t.geometry) α} (hm : t.Within R m) (h : ∀ d d', R d d' → R' d d') :
    t.Within R' m :=
  fun s => (hm s).mono (fun _ _ => h _ _) (fun _ _ => h _ _)

theorem Within.check {x : Except Error α} {f : α → Session (Device t.geometry) β}
    (hrefl : ∀ d, R d d) (hx : ∀ e, x = .error e → e.IsRefusal) (hf : ∀ a, t.Within R (f a)) :
    t.Within R (ofExcept x >>= f) :=
  fun s => Ends.check (fun e h => ⟨(hx e h).not_retryable, hrefl s.bus⟩) fun a _ => hf a s

/-- What every basic operation does to a device, any number of them does. -/
theorem within_of_basic (hrefl : ∀ d, R d d)
    (htrans : ∀ d₁ d₂ d₃, R d₁ d₂ → R d₂ d₃ → R d₁ d₃)
    (hbasic : ∀ ⦃α : Type⦄ (m : Script α), t.Basic m → t.Within R (m _)) {m : Script α}
    (h : Composed t.Basic m) : t.Within R (m (Device t.geometry)) := by
  induction h with
  | part h => exact hbasic _ h
  | pure a => exact fun s => Ends.pure (hrefl s.bus)
  | bind _ _ ihm ihf => exact ihm.bind htrans ihf
  | catchMiss _ _ ihm ihmiss => exact ihm.catchMiss htrans ihmiss
  | settled _ ih => exact fun s => (ih s).settled

end Within

end Table

end Tcam

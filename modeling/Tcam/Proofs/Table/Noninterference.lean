import Tcam.Proofs.Device.Alike
import Tcam.Proofs.Table.Composition

/-!
# Runs over devices with different registers

A session is run twice, over two devices that are alike.  `Pair` says that both
runs give the same result or the same error and leave the devices alike.  What a
session needs to know about the registers that it reads is a fact about each run
alone (`Session.Ends`); the two are put together by `Pair.ends`.
-/

namespace Tcam

namespace Session

variable {g : Geometry} {α β ι : Type}

/-- Both runs give the same result, with `Q`, or the same error, and leave devices
that are alike. -/
def Pair (m : Session (Device g) α) (s₁ s₂ : Table.State (Device g))
    (Q : α → Table.State (Device g) → Table.State (Device g) → Prop) : Prop :=
  match m s₁, m s₂ with
  | .ok a s₁', .ok b s₂' => a = b ∧ s₁'.bus.Alike s₂'.bus ∧ Q a s₁' s₂'
  | .error e s₁', .error e' s₂' => e = e' ∧ s₁'.bus.Alike s₂'.bus
  | _, _ => False

variable {m : Session (Device g) α} {f : α → Session (Device g) β} {s₁ s₂ : Table.State (Device g)}
  {Q : α → Table.State (Device g) → Table.State (Device g) → Prop}
  {Q' : β → Table.State (Device g) → Table.State (Device g) → Prop}

/-- The two outcomes of a pair of runs. -/
theorem Pair.cases (h : Pair m s₁ s₂ Q) :
    (∃ a s₁' s₂', m s₁ = .ok a s₁' ∧ m s₂ = .ok a s₂' ∧ s₁'.bus.Alike s₂'.bus ∧ Q a s₁' s₂') ∨
      ∃ e s₁' s₂', m s₁ = .error e s₁' ∧ m s₂ = .error e s₂' ∧ s₁'.bus.Alike s₂'.bus := by
  unfold Pair at h
  cases h₁ : m s₁ with
  | ok a s₁' =>
      cases h₂ : m s₂ with
      | ok b s₂' =>
          rw [h₁, h₂] at h
          obtain ⟨rfl, h⟩ := h
          exact Or.inl ⟨a, s₁', s₂', rfl, rfl, h⟩
      | error e s₂' =>
          rw [h₁, h₂] at h
          exact h.elim
  | error e s₁' =>
      cases h₂ : m s₂ with
      | ok b s₂' =>
          rw [h₁, h₂] at h
          exact h.elim
      | error e' s₂' =>
          rw [h₁, h₂] at h
          obtain ⟨rfl, h⟩ := h
          exact Or.inr ⟨e, s₁', s₂', rfl, rfl, h⟩

theorem Pair.of_ok {a : α} {s₁' s₂' : Table.State (Device g)} (h₁ : m s₁ = .ok a s₁')
    (h₂ : m s₂ = .ok a s₂') (halike : s₁'.bus.Alike s₂'.bus) (h : Q a s₁' s₂') :
    Pair m s₁ s₂ Q := by
  unfold Pair
  rw [h₁, h₂]
  exact ⟨rfl, halike, h⟩

theorem Pair.of_error {e : Error} {s₁' s₂' : Table.State (Device g)} (h₁ : m s₁ = .error e s₁')
    (h₂ : m s₂ = .error e s₂') (halike : s₁'.bus.Alike s₂'.bus) : Pair m s₁ s₂ Q := by
  unfold Pair
  rw [h₁, h₂]
  exact ⟨rfl, halike⟩

theorem Pair.pure {a : α} (halike : s₁.bus.Alike s₂.bus) (h : Q a s₁ s₂) :
    Pair (Pure.pure a) s₁ s₂ Q :=
  .of_ok rfl rfl halike h

theorem Pair.throw {e : Error} (halike : s₁.bus.Alike s₂.bus) :
    Pair (MonadExcept.throw e) s₁ s₂ Q :=
  .of_error rfl rfl halike

theorem Pair.bind (hm : Pair m s₁ s₂ Q)
    (hf : ∀ a s₁' s₂', s₁'.bus.Alike s₂'.bus → Q a s₁' s₂' → Pair (f a) s₁' s₂' Q') :
    Pair (m >>= f) s₁ s₂ Q' := by
  have hbind (s : Table.State (Device g)) : (m >>= f) s = EStateM.bind m f s := rfl
  rcases hm.cases with ⟨a, s₁', s₂', h₁, h₂, halike, hQ⟩ | ⟨e, s₁', s₂', h₁, h₂, halike⟩
  · have hnext := hf a s₁' s₂' halike hQ
    unfold Pair at hnext ⊢
    simpa only [hbind, EStateM.bind, h₁, h₂] using hnext
  · have hend₁ : (m >>= f) s₁ = .error e s₁' := by
      rw [hbind, EStateM.bind, h₁]
    have hend₂ : (m >>= f) s₂ = .error e s₂' := by
      rw [hbind, EStateM.bind, h₂]
    exact .of_error hend₁ hend₂ halike

theorem Pair.mono {Q₁ : α → Table.State (Device g) → Table.State (Device g) → Prop}
    (h : Pair m s₁ s₂ Q₁) (hQ : ∀ a s₁' s₂', Q₁ a s₁' s₂' → Q a s₁' s₂') : Pair m s₁ s₂ Q := by
  rcases h.cases with ⟨a, s₁', s₂', h₁, h₂, halike, h⟩ | ⟨e, s₁', s₂', h₁, h₂, halike⟩
  · exact .of_ok h₁ h₂ halike (hQ a s₁' s₂' h)
  · exact .of_error h₁ h₂ halike

/-- What is known about each run alone. -/
theorem Pair.ends (limit : Nat) {Q₁ Q₂ : α → Table.State (Device g) → Prop}
    {E₁ E₂ : Error → Table.State (Device g) → Prop} (h : Pair m s₁ s₂ Q)
    (h₁ : Ends limit m s₁ Q₁ E₁) (h₂ : Ends limit m s₂ Q₂ E₂) :
    Pair m s₁ s₂ (fun a s₁' s₂' => Q a s₁' s₂' ∧ Q₁ a s₁' ∧ Q₂ a s₂') := by
  unfold Ends at h₁ h₂
  rcases h.cases with ⟨a, s₁', s₂', hm₁, hm₂, halike, hQ⟩ | ⟨e, s₁', s₂', hm₁, hm₂, halike⟩
  · rw [hm₁] at h₁
    rw [hm₂] at h₂
    exact .of_ok hm₁ hm₂ halike ⟨hQ, h₁.2, h₂.2⟩
  · exact .of_error hm₁ hm₂ halike

theorem Pair.check {x : Except Error α} (halike : s₁.bus.Alike s₂.bus)
    (hf : ∀ a, x = .ok a → Pair (f a) s₁ s₂ Q') : Pair (ofExcept x >>= f) s₁ s₂ Q' := by
  cases x with
  | ok a => exact hf a rfl
  | error e => exact .of_error rfl rfl halike

/-- The state that a session leaves may be changed in what is not the device. -/
theorem Pair.settled (h : Pair m s₁ s₂ fun _ _ _ => True) :
    Pair m.settled s₁ s₂ fun _ _ _ => True := by
  rcases h.cases with ⟨a, s₁', s₂', h₁, h₂, halike, -⟩ | ⟨e, s₁', s₂', h₁, h₂, halike⟩
  · have hend₁ : m.settled s₁ = .ok a { s₁' with phase := .idle } := by
      rw [Session.settled, h₁]
    have hend₂ : m.settled s₂ = .ok a { s₂' with phase := .idle } := by
      rw [Session.settled, h₂]
    exact .of_ok hend₁ hend₂ halike trivial
  · have hend₁ : m.settled s₁ = .error e { s₁' with phase := .idle } := by
      rw [Session.settled, h₁]
    have hend₂ : m.settled s₂ = .error e { s₂' with phase := .idle } := by
      rw [Session.settled, h₂]
    exact .of_error hend₁ hend₂ halike

theorem Pair.catchMiss {onMiss : Session (Device g) α} (h : Pair m s₁ s₂ Q)
    (hmiss : ∀ s₁' s₂', s₁'.bus.Alike s₂'.bus → Pair onMiss s₁' s₂' Q) :
    Pair (MonadExcept.tryCatch m fun
      | .notFound _ => onMiss
      | e => MonadExcept.throw e) s₁ s₂ Q := by
  rcases h.cases with ⟨a, s₁', s₂', h₁, h₂, halike, hQ⟩ | ⟨e, s₁', s₂', h₁, h₂, halike⟩
  · exact .of_ok (tryCatch_of_ok h₁ _) (tryCatch_of_ok h₂ _) halike hQ
  · unfold Pair
    rw [tryCatch_of_error h₁, tryCatch_of_error h₂]
    cases e with
    | notFound i => exact hmiss s₁' s₂' halike
    | _ => exact ⟨rfl, halike⟩

section Loops

variable {R : Table.State (Device g) → Table.State (Device g) → Prop}

theorem Pair.forM {f : ι → Session (Device g) Unit} {l : List ι}
    (hf : ∀ i ∈ l, ∀ s₁ s₂, s₁.bus.Alike s₂.bus → R s₁ s₂ → Pair (f i) s₁ s₂ fun _ => R)
    (halike : s₁.bus.Alike s₂.bus) (h : R s₁ s₂) : Pair (l.forM f) s₁ s₂ fun _ => R := by
  induction l generalizing s₁ s₂ with
  | nil => exact .pure halike h
  | cons i l ih =>
      obtain ⟨hi, hl⟩ := List.forall_mem_cons.mp hf
      exact (hi s₁ s₂ halike h).bind fun _ s₁' s₂' halike' h' => ih hl halike' h'

theorem Pair.foldlM {f : β → ι → Session (Device g) β} {l : List ι}
    (hf : ∀ b, ∀ i ∈ l, ∀ s₁ s₂, s₁.bus.Alike s₂.bus → R s₁ s₂ → Pair (f b i) s₁ s₂ fun _ => R)
    (b : β) (halike : s₁.bus.Alike s₂.bus) (h : R s₁ s₂) :
    Pair (l.foldlM f b) s₁ s₂ fun _ => R := by
  induction l generalizing s₁ s₂ b with
  | nil => exact .pure halike h
  | cons i l ih =>
      rw [List.foldlM_cons]
      refine (hf b i List.mem_cons_self s₁ s₂ halike h).bind fun b s₁' s₂' halike' h' => ?_
      exact ih (fun b i hi => hf b i (List.mem_cons_of_mem _ hi)) b halike' h'

end Loops

end Session

namespace Table

open Session (Ends Pair onBus)

variable {t : Table} {s₁ s₂ : Table.State (Device t.geometry)}

/-! ## Accesses and commands -/

/-- An access that gives the same in both runs, unless the fault comes first. -/
theorem pair_onBus {α : Type} {access x : EStateM RegError (Device t.geometry) α} {r : RegError}
    {Q : α → Table.State (Device t.geometry) → Table.State (Device t.geometry) → Prop} {a : α}
    {d₁ d₂ : Device t.geometry} (halike : s₁.bus.Alike s₂.bus)
    (h : ∀ d : Device t.geometry, access d = if d.FaultDue then .error r d.faulted else x d.counted)
    (h₁ : x s₁.bus.counted = .ok a d₁) (h₂ : x s₂.bus.counted = .ok a d₂) (hd : d₁.Alike d₂)
    (hQ : Q a { s₁ with bus := d₁ } { s₂ with bus := d₂ }) : Pair (onBus access) s₁ s₂ Q := by
  have hfails {s : Table.State (Device t.geometry)} (hdue : s.bus.FaultDue) :
      onBus access s = .error (.transport r) { s with
        bus := s.bus.faulted
        stats := { s.stats with transportErrors := s.stats.transportErrors + 1 } } := by
    unfold onBus
    rw [h, if_pos hdue]
  have hgives {s : Table.State (Device t.geometry)} {d : Device t.geometry}
      (hdue : ¬s.bus.FaultDue) (hx : x s.bus.counted = .ok a d) :
      onBus access s = .ok a { s with bus := d } := by
    unfold onBus
    rw [h, if_neg hdue, hx]
  by_cases hdue : s₁.bus.FaultDue
  · exact .of_error (hfails hdue) (hfails (halike.faultDue.mp hdue)) halike.faulted
  · have hdue₂ : ¬s₂.bus.FaultDue := fun h => hdue (halike.faultDue.mpr h)
    exact .of_ok (hgives hdue h₁) (hgives hdue₂ h₂) hd hQ

/-- The registers that commands write are the same in both runs. -/
abbrev SameRegisters (s₁ s₂ : Table.State (Device t.geometry)) : Prop :=
  Device.SameRegisters s₁.bus s₂.bus

theorem pair_readData (halike : s₁.bus.Alike s₂.bus) (hsame : SameRegisters s₁ s₂) {i : Nat}
    (hi : i < dataRegisters) :
    Pair (t.readRegister (dataRegister i)) s₁ s₂ fun _ => SameRegisters := by
  have h₂ := Device.fetch_dataRegister hi s₂.bus.counted
  have hvalue : s₂.bus.counted.data.get i = s₁.bus.counted.data.get i :=
    congrArg (fun data => Registers.get data i) hsame.2.symm
  rw [hvalue] at h₂
  exact pair_onBus halike (fun d => d.readRegister_eq _)
    (Device.fetch_dataRegister hi s₁.bus.counted) h₂ halike.counted hsame

theorem pair_writeData (halike : s₁.bus.Alike s₂.bus) {i : Nat} (hi : i < dataRegisters)
    (value : Word) :
    Pair (t.writeRegister (dataRegister i) value) s₁ s₂ fun _ _ _ => True :=
  pair_onBus halike (fun d => d.writeRegister_eq _ value)
    (Device.store_dataRegister hi value s₁.bus.counted)
    (Device.store_dataRegister hi value s₂.bus.counted)
    (halike.counted.withRegisters _ _ _ _ _ _) trivial

theorem pair_readOperation (halike : s₁.bus.Alike s₂.bus) (hsame : SameRegisters s₁ s₂) :
    Pair (t.readRegister operationRegister) s₁ s₂ fun _ => SameRegisters := by
  have h₂ := s₂.bus.fetch_operationRegister
  rw [← hsame.1, ← halike.busyBit] at h₂
  exact pair_onBus halike (fun d => d.readRegister_eq _) s₁.bus.fetch_operationRegister h₂
    halike.polled hsame

theorem pair_poll (halike : s₁.bus.Alike s₂.bus) (n : Nat) :
    Pair (t.poll n) s₁ s₂ fun _ _ _ => True := by
  induction n generalizing s₁ s₂ with
  | zero => exact .of_error rfl rfl halike
  | succ n ih =>
      have h₁ := poll_succ n s₁
      have h₂ := poll_succ n s₂
      by_cases hdue : s₁.bus.FaultDue
      · rw [if_pos hdue] at h₁
        rw [if_pos (halike.faultDue.mp hdue)] at h₂
        exact .of_error h₁ h₂ halike.faulted
      rw [if_neg hdue] at h₁
      rw [if_neg fun h => hdue (halike.faultDue.mpr h), ← halike.busyBit] at h₂
      cases hbusy : s₁.bus.busyBit with
      | false =>
          rw [hbusy] at h₁ h₂
          exact .of_ok h₁ h₂ halike.polled trivial
      | true =>
          rw [hbusy] at h₁ h₂
          have hrest : Pair (t.poll n) { s₁ with bus := s₁.bus.polled }
              { s₂ with bus := s₂.bus.polled } fun _ _ _ => True := ih halike.polled
          unfold Pair at hrest ⊢
          rw [h₁, h₂]
          exact hrest

theorem pair_enter (halike : s₁.bus.Alike s₂.bus) (phase : Phase) :
    Pair (Session.enter phase) s₁ s₂ fun _ s₁' s₂' => s₁'.bus = s₁.bus ∧ s₂'.bus = s₂.bus :=
  .of_ok rfl rfl halike ⟨rfl, rfl⟩

theorem pair_count (halike : s₁.bus.Alike s₂.bus) (f : Stats → Stats) :
    Pair (Session.count f) s₁ s₂ fun _ s₁' s₂' => s₁'.bus = s₁.bus ∧ s₂'.bus = s₂.bus :=
  .of_ok rfl rfl halike ⟨rfl, rfl⟩

theorem pair_writeOperation {c : Command} (halike : s₁.bus.Alike s₂.bus) (h₁ : s₁.bus.Runs c)
    (h₂ : s₂.bus.Runs c) (hload : Device.SameLoad c s₁.bus s₂.bus) :
    Pair (t.writeRegister operationRegister c.word) s₁ s₂ fun _ _ _ => True := by
  have hruns₁ : s₁.bus.counted.Runs c := h₁
  have hruns₂ : s₂.bus.counted.Runs c := h₂
  exact pair_onBus halike (fun d => d.writeRegister_eq _ c.word) (Device.store_word hruns₁)
    (Device.store_word hruns₂) (halike.counted.perform hload) trivial

theorem pair_issue {c : Command} (halike : s₁.bus.Alike s₂.bus) (h₁ : s₁.bus.Runs c)
    (h₂ : s₂.bus.Runs c) (hload : Device.SameLoad c s₁.bus s₂.bus) :
    Pair (t.issue c) s₁ s₂ fun _ _ _ => True := by
  unfold issue
  refine (pair_enter halike .awaitingBusy).bind fun _ s₁' s₂' halike' h' => ?_
  have hwait := (pair_poll halike' t.pollLimit).ends t.pollLimit waitReady_ends waitReady_ends
  rw [h'.1, h'.2] at hwait
  refine Pair.bind hwait fun _ e₁ e₂ halike h => ?_
  obtain ⟨-, hagrees₁, hagrees₂⟩ := h
  have hload' : Device.SameLoad c e₁.bus e₂.bus := fun hc => by
    rw [hagrees₁.data, hagrees₂.data]
    exact hload hc
  refine (pair_writeOperation halike (hagrees₁.runs h₁) (hagrees₂.runs h₂) hload').bind ?_
  intro _ _ _ halike _
  exact (pair_enter halike .commandIssued).bind fun _ _ _ halike _ => pair_poll halike _

/-- Both devices carry out the command. -/
theorem pair_command {opcode : Opcode} {page : Page} {index : SlotIndex}
    (halike : s₁.bus.Alike s₂.bus) (h₁ : s₁.bus.Runs ⟨opcode, page, index⟩)
    (h₂ : s₂.bus.Runs ⟨opcode, page, index⟩)
    (hload : Device.SameLoad ⟨opcode, page, index⟩ s₁.bus s₂.bus) :
    Pair (t.command opcode page index) s₁ s₂ fun _ s₁' s₂' =>
      s₁'.bus.Agrees (s₁.bus.perform ⟨opcode, page, index⟩) ∧
        s₂'.bus.Agrees (s₂.bus.perform ⟨opcode, page, index⟩) := by
  have hrun : Pair (t.command opcode page index) s₁ s₂ fun _ _ _ => True := by
    rw [command_eq]
    exact (pair_issue halike h₁ h₂ hload).settled
  exact (hrun.ends t.pollLimit (command_ends h₁) (command_ends h₂)).mono fun _ _ _ h => h.2

/-- The selection reads a register that may differ, and writes back what it read. -/
theorem pair_select (halike : s₁.bus.Alike s₂.bus) :
    Pair t.selectActionSubBlock s₁ s₂ fun _ s₁' s₂' =>
      ActionSelected s₁'.bus ∧ ActionSelected s₂'.bus := by
  have hrun : Pair t.selectActionSubBlock s₁ s₂ fun _ _ _ => True := by
    have h₁ := selectActionSubBlock_eq s₁
    have h₂ := selectActionSubBlock_eq s₂
    by_cases hdue : s₁.bus.FaultDue
    · rw [if_pos hdue] at h₁
      rw [if_pos (halike.faultDue.mp hdue)] at h₂
      exact .of_error h₁ h₂ halike.faulted
    rw [if_neg hdue] at h₁
    rw [if_neg fun h => hdue (halike.faultDue.mpr h)] at h₂
    by_cases hnext : s₁.bus.counted.FaultDue
    · rw [if_pos hnext] at h₁
      rw [if_pos (halike.counted.faultDue.mp hnext)] at h₂
      exact .of_error h₁ h₂ halike.counted.faulted
    · rw [if_neg hnext] at h₁
      rw [if_neg fun h => hnext (halike.counted.faultDue.mpr h)] at h₂
      exact .of_ok h₁ h₂ (halike.counted.counted.withRegisters _ _ _ _ _ _) trivial
  refine (hrun.ends t.pollLimit selectActionSubBlock_ends selectActionSubBlock_ends).mono ?_
  exact fun _ _ _ h => ⟨selected_of_agrees h.2.1, selected_of_agrees h.2.2⟩

/-! ## Pages -/

/-- The page is in the data registers of both devices afterwards. -/
theorem pair_writePage {n : Nat} (hn : n ≤ dataRegisters) (page : Registers n)
    (halike : s₁.bus.Alike s₂.bus) :
    Pair (t.writePage page) s₁ s₂ fun _ s₁' s₂' =>
      (∃ data, s₁'.bus.Agrees { s₁.bus with data := data } ∧ data.setWidth (16 * n) = page) ∧
        ∃ data, s₂'.bus.Agrees { s₂.bus with data := data } ∧ data.setWidth (16 * n) = page := by
  have hrun : Pair (t.writePage page) s₁ s₂ fun _ _ _ => True := by
    refine Pair.forM (fun i hi s₁ s₂ halike _ => ?_) halike trivial
    exact pair_writeData halike (Nat.lt_of_lt_of_le (List.mem_range.mp hi) hn) _
  exact (hrun.ends t.pollLimit (writePage_ends hn page) (writePage_ends hn page)).mono
    fun _ _ _ h => h.2

theorem pair_readPage {n : Nat} (hn : n ≤ dataRegisters) (halike : s₁.bus.Alike s₂.bus)
    (hsame : SameRegisters s₁ s₂) : Pair (t.readPage n) s₁ s₂ fun _ => SameRegisters := by
  refine Pair.foldlM (fun page i hi s₁ s₂ halike hsame => ?_) _ halike hsame
  have hlt := Nat.lt_of_lt_of_le (List.mem_range.mp hi) hn
  exact (pair_readData halike hsame hlt).bind fun word _ _ halike hsame => .pure halike hsame

theorem pair_registersAreZero (l : List Nat) (hl : ∀ k ∈ l, k < dataRegisters)
    (halike : s₁.bus.Alike s₂.bus) (hsame : SameRegisters s₁ s₂) :
    Pair (t.registersAreZero l) s₁ s₂ fun _ _ _ => True := by
  induction l generalizing s₁ s₂ with
  | nil => exact .pure halike trivial
  | cons k l ih =>
      unfold registersAreZero
      obtain ⟨hk, hrest⟩ := List.forall_mem_cons.mp hl
      refine (pair_readData halike hsame hk).bind fun word _ _ halike hsame => ?_
      by_cases hzero : word = 0#16
      · rw [if_pos hzero]
        exact ih hrest halike hsame
      · rw [if_neg hzero]
        exact .pure halike trivial

theorem pair_isMiss (found : SlotIndex) (halike : s₁.bus.Alike s₂.bus)
    (hsame : SameRegisters s₁ s₂) : Pair (t.isMiss found) s₁ s₂ fun _ _ _ => True := by
  unfold isMiss
  by_cases hmax : found = t.geometry.maxIndex
  · rw [if_pos hmax]
    exact pair_registersAreZero missRegisters (by decide) halike hsame
  · rw [if_neg hmax]
    exact .pure halike trivial

/-! ## Operations -/

variable (hvalid : t.geometry.Valid)

include hvalid

theorem pair_loadPage {slot : SlotIndex} (hslot : slot ≤ t.geometry.maxIndex) (page : Page)
    (image : SlotImage) (halike : s₁.bus.Alike s₂.bus)
    (hselected : ActionSelected s₁.bus ∧ ActionSelected s₂.bus) :
    Pair (t.loadPage slot page image) s₁ s₂ fun _ s₁' s₂' =>
      ActionSelected s₁'.bus ∧ ActionSelected s₂'.bus := by
  have hrun : Pair (t.loadPage slot page image) s₁ s₂ fun _ _ _ => True := by
    unfold loadPage
    refine (pair_writePage page.registers_le (image.page page) halike).bind ?_
    rintro _ e₁ e₂ halike ⟨⟨data₁, h₁, hdata₁⟩, data₂, h₂, hdata₂⟩
    have hruns {d d' : Device t.geometry} {data : Registers dataRegisters}
        (h : d'.Agrees { d with data := data }) (hd : ActionSelected d) :
        d'.Runs ⟨.load, page, slot⟩ :=
      Device.runs_of_index_le hvalid.maxIndex_le hslot fun _ => h.extension ▸ hd
    -- Both devices load the page that has just been written.
    have hload : Device.SameLoad ⟨.load, page, slot⟩ e₁.bus e₂.bus := fun _ => by
      rw [h₁.data, h₂.data]
      exact hdata₁.trans hdata₂.symm
    exact (pair_command halike (hruns h₁ hselected.1) (hruns h₂ hselected.2) hload).mono
      fun _ _ _ _ => trivial
  refine (hrun.ends t.pollLimit (loadPage_ends hvalid hslot page image hselected.1)
    (loadPage_ends hvalid hslot page image hselected.2)).mono ?_
  exact fun _ _ _ h => ⟨h.2.1.2, h.2.2.2⟩

theorem pair_fetchPage {slot : SlotIndex} (hslot : slot ≤ t.geometry.maxIndex) (page : Page)
    (halike : s₁.bus.Alike s₂.bus)
    (hselected : page = .action → ActionSelected s₁.bus ∧ ActionSelected s₂.bus) :
    Pair (t.fetchPage slot page) s₁ s₂ fun _ _ _ => True := by
  unfold fetchPage
  have hruns₁ : s₁.bus.Runs ⟨.read, page, slot⟩ :=
    Device.runs_of_index_le hvalid.maxIndex_le hslot fun h => (hselected h).1
  have hruns₂ : s₂.bus.Runs ⟨.read, page, slot⟩ :=
    Device.runs_of_index_le hvalid.maxIndex_le hslot fun h => (hselected h).2
  have hread := halike.sameRegisters_read page slot
  have hload := Device.sameLoad_of_ne (c := ⟨.read, page, slot⟩) s₁.bus s₂.bus nofun
  refine (pair_command halike hruns₁ hruns₂ hload).bind fun _ e₁ e₂ halike h => ?_
  have hsame : SameRegisters e₁ e₂ := hread.congr h.1 h.2
  exact (pair_readPage page.registers_le halike hsame).mono fun _ _ _ _ => trivial

theorem pair_readEntry (slot : SlotIndex) (halike : s₁.bus.Alike s₂.bus) :
    Pair (t.readEntry slot) s₁ s₂ fun _ _ _ => True := by
  rw [readEntry_eq]
  refine Pair.check halike fun _ hslot => ?_
  have hmax := (Geometry.checkSlot_eq_ok_iff.mp hslot).2
  refine (pair_fetchPage hvalid hmax .key halike (nomatch ·)).bind fun key _ _ halike _ => ?_
  have hwindow {e₁ e₂ : Table.State (Device t.geometry)} (halike : e₁.bus.Alike e₂.bus) :
      Pair (t.fetchWindow slot) e₁ e₂ fun _ _ _ => True := by
    unfold fetchWindow
    cases t.geometry.hasWindowPage with
    | false => exact .pure halike trivial
    | true => exact pair_fetchPage hvalid hmax .window halike (nomatch ·)
  refine (hwindow halike).bind fun window _ _ halike _ => ?_
  refine (pair_select halike).bind fun _ _ _ halike hselected => ?_
  refine (pair_fetchPage hvalid hmax .action halike fun _ => hselected).bind ?_
  intro action _ _ halike _
  exact (pair_count halike _).bind fun _ _ _ halike _ => .pure halike trivial

theorem pair_getNextEntry (slot : SlotIndex) (halike : s₁.bus.Alike s₂.bus) :
    Pair (t.getNextEntry slot) s₁ s₂ fun _ _ _ => True := by
  rw [getNextEntry_eq]
  refine Pair.check halike fun _ hstart => ?_
  have hmax := checkStart_eq_ok_iff.mp hstart
  have hsearch := halike.sameRegisters_getNext .key slot
  have hload := Device.sameLoad_of_ne (c := ⟨.getNext, .key, slot⟩) s₁.bus s₂.bus nofun
  refine (pair_command halike (runs_key hvalid .getNext hmax s₁.bus)
    (runs_key hvalid .getNext hmax s₂.bus) hload).bind fun _ e₁ e₂ halike h => ?_
  have hsame : SameRegisters e₁ e₂ := hsearch.congr h.1 h.2
  refine (pair_count halike _).bind fun _ e₁' e₂' halike h => ?_
  have hsame' : SameRegisters e₁' e₂' := by
    unfold SameRegisters
    rw [h.1, h.2]
    exact hsame
  refine (pair_readOperation halike hsame').bind fun word _ _ halike hsame => ?_
  refine (pair_isMiss _ halike hsame).bind fun miss _ _ halike _ => ?_
  cases miss with
  | true => exact .throw halike
  | false => exact pair_readEntry hvalid _ halike

theorem pair_loadEntry (slot : SlotIndex) (entry : Entry) (halike : s₁.bus.Alike s₂.bus) :
    Pair (t.loadEntry slot entry) s₁ s₂ fun _ _ _ => True := by
  rw [loadEntry_eq]
  refine Pair.check halike fun _ hslot => Pair.check halike fun _ _ => ?_
  have hmax := (Geometry.checkSlot_eq_ok_iff.mp hslot).2
  refine (pair_select halike).bind fun _ _ _ halike hselected => ?_
  have hpages := Pair.forM (l := t.geometry.loadOrder)
    (fun page _ e₁ e₂ halike h => pair_loadPage hvalid hmax page (.ofEntry entry) halike h)
    halike hselected
  refine hpages.bind fun _ _ _ halike _ => ?_
  exact (pair_count halike _).mono fun _ _ _ _ => trivial

/-- The flushes run one command. -/
theorem pair_flush (opcode : Opcode) (hopcode : opcode ≠ .load) {slot : SlotIndex}
    (hslot : slot ≤ t.geometry.maxIndex) (f : Stats → Stats) (halike : s₁.bus.Alike s₂.bus) :
    Pair (t.command opcode .key slot >>= fun _ => Session.count f) s₁ s₂ fun _ _ _ => True := by
  have hload := Device.sameLoad_of_ne (c := ⟨opcode, .key, slot⟩) s₁.bus s₂.bus hopcode
  refine (pair_command halike (runs_key hvalid opcode hslot s₁.bus)
    (runs_key hvalid opcode hslot s₂.bus) hload).bind fun _ _ _ halike _ => ?_
  exact (pair_count halike f).mono fun _ _ _ _ => trivial

/-- Whatever the registers hold, sessions of basic operations do the same. -/
theorem pair_of_basic {α : Type} {m : Script α} (h : Composed t.Basic m)
    (halike : s₁.bus.Alike s₂.bus) :
    Pair (m (Device t.geometry)) s₁ s₂ fun _ _ _ => True := by
  induction h generalizing s₁ s₂ with
  | part h =>
      cases h with
      | flushAll =>
          have hzero : 0#16 ≤ t.geometry.maxIndex := BitVec.le_def.mpr (Nat.zero_le _)
          exact pair_flush hvalid .flushAll nofun hzero _ halike
      | flushEntry slot =>
          refine Pair.check halike fun _ hslot => ?_
          have hmax := (Geometry.checkSlot_eq_ok_iff.mp hslot).2
          exact pair_flush hvalid .flushEntry nofun hmax _ halike
      | loadEntry slot entry => exact pair_loadEntry hvalid slot entry halike
      | readEntry slot => exact pair_readEntry hvalid slot halike
      | getNextEntry slot => exact pair_getNextEntry hvalid slot halike
      | throw e _ => exact .throw halike
  | pure a => exact .pure halike trivial
  | bind _ _ ihm ihf => exact (ihm halike).bind fun a _ _ halike _ => ihf a halike
  | catchMiss _ _ ihm ihmiss => exact (ihm halike).catchMiss fun _ _ halike => ihmiss halike
  | settled _ ih => exact (ih halike).settled

end Table
end Tcam

import Tcam.Proofs.Device.Reload
import Tcam.Proofs.Table.Accesses
import Tcam.Proofs.Table.Polling

/-!
# Sessions that can be repeated

A session that the hardware has broken off is run once more.  `Session.Resumes` says
that it then gives what a run without the failure gives, unless the hardware breaks
it off again.  That it does not is known from the run without the failure: it had to
wait for the block, so the block is never busy for long (`Session.Waits`).
-/

namespace Tcam

theorem Entry.withPorts_withPorts {update : Masked PortVector → Masked PortVector}
    (h : ∀ ports, update (update ports) = update ports) (entry : Entry) :
    (entry.withPorts update).withPorts update = entry.withPorts update := by
  unfold withPorts
  simp only [h]

namespace Session

variable {σ α β : Type}

theorem of_settled_eq_ok {m : Session σ α} {s s' : Table.State σ} {a : α}
    (h : m.settled s = .ok a s') : ∃ s₁, m s = .ok a s₁ ∧ s'.bus = s₁.bus := by
  rw [settled_eq] at h
  cases hm : m s with
  | ok a' s₁ =>
      rw [hm] at h
      obtain ⟨rfl, rfl⟩ := EStateM.Result.ok.inj h
      exact ⟨s₁, rfl, rfl⟩
  | error e s₁ =>
      rw [hm] at h
      exact nomatch h

theorem of_settled_eq_error {m : Session σ α} {s s' : Table.State σ} {e : Error}
    (h : m.settled s = .error e s') : ∃ s₁, m s = .error e s₁ ∧ s'.bus = s₁.bus := by
  rw [settled_eq] at h
  cases hm : m s with
  | ok a s₁ =>
      rw [hm] at h
      exact nomatch h
  | error e' s₁ =>
      rw [hm] at h
      obtain ⟨rfl, rfl⟩ := EStateM.Result.error.inj h
      exact ⟨s₁, rfl, rfl⟩

end Session

namespace Table

open Session (Ends of_settled_eq_ok of_settled_eq_error)

variable {t : Table} {α β : Type}

/-! ## Waiting -/

section Waits

variable {m : Session (Device t.geometry) α} {f : α → Session (Device t.geometry) β}

/-- A session that gives a result while no fault is pending shows that the device was
ready. -/
def Waits (t : Table) (m : Session (Device t.geometry) α) : Prop :=
  ∀ ⦃s s' : State (Device t.geometry)⦄ ⦃a : α⦄, s.bus.failAt = none → m s = .ok a s' →
    s.bus.Ready t.pollLimit

/-- What the busy bit would end at its first command waits for the block. -/
theorem waits_of_timesOut (h : ∀ s s' a, s.bus.failAt = none → m s = .ok a s' → t.TimesOut m s) :
    t.Waits m :=
  fun s s' a hfault hrun => (h s s' a hfault hrun).ready hfault hrun

theorem Waits.bind (hm : t.Waits m) : t.Waits (m >>= f) := by
  intro s s' b hfault h
  obtain ⟨a, s₁, hrun, -⟩ := of_bind_eq_ok h
  exact hm hfault hrun

theorem Waits.settled (hm : t.Waits m) : t.Waits m.settled := by
  intro s s' a hfault h
  obtain ⟨s₁, hrun, -⟩ := of_settled_eq_ok h
  exact hm hfault hrun

end Waits

/-! ## Running again -/

section Resumes

variable {m : Session (Device t.geometry) α}

/-- A run from `s` succeeds, and one from the same slots is broken off by the hardware.
What runs again over the slots that the second one has left gives what the first one
has given, unless the hardware breaks it off too. -/
def Resumes (t : Table) (m : Session (Device t.geometry) α) : Prop :=
  ∀ ⦃s s' f f' r : State (Device t.geometry)⦄ ⦃a : α⦄ ⦃e : Error⦄, m s = .ok a s' →
    m f = .error e f' → e.isRetryable = true → f.bus.slots = s.bus.slots →
    r.bus.slots = f'.bus.slots →
    Ends t.pollLimit m r (fun b r' => b = a ∧ r'.bus.slots = s'.bus.slots)
      (fun e _ => e.isRetryable = true)

/-- An operation that looks at its arguments and the slots (`Accepts`) before it changes
slots, and is broken off somewhere on its way (`Stops`). -/
theorem Resumes.of_ends (Accepts : State (Device t.geometry) → Prop)
    (Stops : State (Device t.geometry) → State (Device t.geometry) → Prop)
    {Done : State (Device t.geometry) → α → State (Device t.geometry) → Prop}
    (hends : ∀ s, Ends t.pollLimit m s (fun a s' => Accepts s ∧ Done s a s')
      (fun e s' => ¬Accepts s ∨ e.isRetryable = true ∧ Stops s s'))
    (hslots : ∀ ⦃s f⦄, f.bus.slots = s.bus.slots → Accepts s → Accepts f)
    (hagain : ∀ ⦃s s' f f' r a⦄, Accepts s → Done s a s' → f.bus.slots = s.bus.slots →
      Stops f f' → r.bus.slots = f'.bus.slots →
      Accepts r ∧ ∀ b r', Done r b r' → b = a ∧ r'.bus.slots = s'.bus.slots) : t.Resumes m := by
  intro s s' f f' r a e hok herror he hf hr
  obtain ⟨haccepts, hdone⟩ := (hends s).of_ok hok
  have hstops := ((hends f).of_error herror).resolve_left fun h => h (hslots hf haccepts)
  obtain ⟨haccepts', hsame⟩ := hagain haccepts hdone hf hstops.2 hr
  refine (hends r).mono (fun b r' h => hsame b r' h.2) fun e' r' h => ?_
  exact (h.resolve_left fun h => h haccepts').1

theorem Resumes.map (hm : t.Resumes m) (h : α → β) : t.Resumes (do return h (← m)) := by
  intro s s' f f' r b e hok herror he hf hr
  obtain ⟨a, s₁, hrun, hpure⟩ := of_bind_eq_ok hok
  obtain ⟨rfl, rfl⟩ := EStateM.Result.ok.inj hpure
  rcases of_bind_eq_error herror with hfailed | ⟨_, _, -, hpure⟩
  · refine (hm hrun hfailed he hf hr).map.mono ?_ (fun _ _ h => h)
    rintro _ r' ⟨a', rfl, rfl, hslots⟩
    exact ⟨rfl, hslots⟩
  · exact nomatch hpure

theorem Resumes.settled (hm : t.Resumes m) : t.Resumes m.settled := by
  intro s s' f f' r a e hok herror he hf hr
  obtain ⟨s₁, hrun, hbus⟩ := of_settled_eq_ok hok
  obtain ⟨f₁, hfailed, hbus'⟩ := of_settled_eq_error herror
  rw [hbus'] at hr
  rw [hbus]
  exact (hm hrun hfailed he hf hr).settled

/-- A session that can be repeated when the hardware has broken it off. -/
structure Repeatable (t : Table) (m : Session (Device t.geometry) α) : Prop where
  waits : t.Waits m
  resumes : t.Resumes m

/-- If a pending fault makes a difference, it is no longer pending afterwards. -/
theorem noFault_of_failed {m : Script α} (hm : t.HasTrace m)
    {s s' f' : State (Device t.geometry)} {a : α} {n : Nat} {e : Error}
    (hcalm : m (Device t.geometry) (s.failing none) = .ok a s')
    (hfailed : m (Device t.geometry) (s.failing (some n)) = .error e f') :
    f'.bus.failAt = none := by
  obtain ⟨made, htrace⟩ := hm (s.failing none) rfl
  by_cases hn : n ≤ s.bus.accesses ∨ s.bus.accesses + made.length < n
  · have hlater := htrace.later n hn
    rw [hcalm] at hlater
    exact nomatch hfailed.symm.trans hlater
  -- The fault hits one of the accesses.
  have hlt : n - s.bus.accesses - 1 < made.length := by
    omega
  obtain ⟨f'', hrun, hbus, -⟩ := htrace.failed _ _ (List.getElem?_eq_getElem hlt)
  have hposition : s.bus.accesses + (n - s.bus.accesses - 1) + 1 = n := by
    omega
  change m _ (s.failing (some (s.bus.accesses + (n - s.bus.accesses - 1) + 1))) = _ at hrun
  rw [hposition, hfailed] at hrun
  obtain ⟨-, rfl⟩ := EStateM.Result.error.inj hrun
  rw [hbus]
  rfl

/-- What a session gives without a fault, it gives when it is run again after a fault. -/
theorem Repeatable.retry {m : Script α} (hm : Composed t.Step m)
    (hrep : t.Repeatable (m (Device t.geometry))) {s s' f' : State (Device t.geometry)} {a : α}
    {n : Nat} {e : Error} (hcalm : m (Device t.geometry) (s.failing none) = .ok a s')
    (hfailed : m (Device t.geometry) (s.failing (some n)) = .error e f')
    (he : e.isRetryable = true) :
    f'.bus.failAt = none ∧ ∃ r', m (Device t.geometry) f' = .ok a r' ∧
      r'.bus.slots = s'.bus.slots := by
  have hfault := noFault_of_failed (hasTrace_of_steps hm) hcalm hfailed
  -- The block is as prompt as it was before.
  have hready := hrep.waits (s := s.failing none) rfl hcalm
  have hprompt : (s.failing (some n)).bus.Prompt t.pollLimit :=
    ⟨hready.notStuck, hready.delay_lt, hready.remaining_lt⟩
  have hreaches := reaches_of_steps hm (s.failing (some n))
  rw [hfailed] at hreaches
  have hends := hrep.resumes (f := s.failing (some n)) (r := f') hcalm hfailed he rfl rfl
  obtain ⟨_, r', hrun, rfl, hslots⟩ := hends.ok_of_ready ((hreaches.prompt hprompt).ready hfault)
  exact ⟨hfault, r', hrun, hslots⟩

theorem Repeatable.map (hm : t.Repeatable m) (h : α → β) :
    t.Repeatable (do return h (← m)) :=
  ⟨hm.waits.bind, hm.resumes.map h⟩

theorem Repeatable.settled (hm : t.Repeatable m) : t.Repeatable m.settled :=
  ⟨hm.waits.settled, hm.resumes.settled⟩

end Resumes

/-! ## What repeated operations leave -/

variable (hvalid : t.geometry.Valid)

include hvalid

theorem repeatable_flushAll : t.Repeatable t.flushAll where
  waits := waits_of_timesOut fun _ _ _ hfault _ => timesOut_flushAll hvalid hfault
  resumes := by
    refine .of_ends (fun _ => True) (fun _ _ => True) (fun s => (flushAll_ends hvalid).mono
      (fun _ s' h => ⟨trivial, h⟩) (fun e s' h => Or.inr ⟨h.1, trivial⟩)) (fun _ _ _ h => h) ?_
    exact fun s s' f f' r a _ h _ _ _ => ⟨trivial, fun _ _ h' => ⟨rfl, h'.trans h.symm⟩⟩

theorem repeatable_flushEntry (slot : SlotIndex) : t.Repeatable (t.flushEntry slot) where
  waits := waits_of_timesOut fun _ _ _ hfault hrun =>
    timesOut_flushEntry hvalid hfault ((flushEntry_ends hvalid slot).of_ok hrun).1
  resumes := by
    refine .of_ends (fun _ => t.geometry.checkSlot slot = .ok ())
      (fun s s' => s'.bus.slots = s.bus.slots ∨ s'.bus.slots = (s.bus.flushed slot).slots)
      (fun s => (flushEntry_ends hvalid slot).mono (fun _ _ h => h) ?_) (fun _ _ _ h => h) ?_
    · rintro e s' (⟨h, -⟩ | ⟨-, h⟩)
      · exact Or.inl fun hslot => nomatch hslot.symm.trans h
      · exact Or.inr h
    · intro s s' f f' r a hslot hs' hf hstops hr
      refine ⟨hslot, fun b r' hr' => ⟨rfl, hr'.trans (Eq.trans ?_ hs'.symm)⟩⟩
      rcases hstops with h | h
      · exact Device.flushed_congr (hr.trans (h.trans hf)) slot
      · exact Device.flushed_of_flushed (hr.trans (h.trans (Device.flushed_congr hf slot)))

omit hvalid in
theorem PartlyLoaded.congr {s f f' r : State (Device t.geometry)} {slot : SlotIndex}
    {entry : Entry} (h : PartlyLoaded f slot entry f') (hf : f.bus.slots = s.bus.slots)
    (hr : r.bus.slots = f'.bus.slots) : PartlyLoaded s slot entry r := by
  obtain ⟨done, hdone, hslots⟩ := h
  exact ⟨done, hdone, hr.trans (hslots.trans (Device.loaded_congr hf slot _ done))⟩

theorem repeatable_loadEntry (slot : SlotIndex) (entry : Entry) :
    t.Repeatable (t.loadEntry slot entry) where
  waits := waits_of_timesOut fun _ _ _ hfault hrun => by
    obtain ⟨hslot, hentry, -⟩ := (loadEntry_ends hvalid slot entry).of_ok hrun
    exact timesOut_loadEntry hvalid hfault hslot hentry
  resumes := by
    refine .of_ends
      (fun _ => t.geometry.checkSlot slot = .ok () ∧ entry.check t.geometry = .ok ())
      (fun s => PartlyLoaded s slot entry)
      (fun s => (loadEntry_ends hvalid slot entry).mono (fun _ _ h => ⟨⟨h.1, h.2.1⟩, h.2.2⟩) ?_)
      (fun _ _ _ h => h) ?_
    · rintro e s' (⟨h, -⟩ | ⟨-, h, -⟩ | ⟨-, -, he, h⟩)
      · exact Or.inl fun haccepts => nomatch haccepts.1.symm.trans h
      · exact Or.inl fun haccepts => nomatch haccepts.2.symm.trans h
      · exact Or.inr ⟨he, h⟩
    · intro s s' f f' r a haccepts hs' hf hstops hr
      obtain ⟨done, hdone, h⟩ := hstops.congr hf hr
      refine ⟨haccepts, fun b r' hr' => ⟨rfl, hr'.trans (Eq.trans ?_ hs'.symm)⟩⟩
      exact Device.loaded_of_loaded hdone h

/-- A port is changed over an interrupted change of the same port.  The entry that is
read then has its ports changed already or not, and no other difference. -/
theorem repeatable_updatePorts (slot : SlotIndex) (port : Octet)
    {update : Masked PortVector → Masked PortVector}
    (hupdate : port.toNat < PortVector.width → KeepsWidth update)
    (hagain : ∀ ports, update (update ports) = update ports) :
    t.Repeatable (t.updatePorts slot port update) where
  waits := waits_of_timesOut fun _ _ _ hfault hrun => by
    obtain ⟨hport, hslot, -⟩ := (updatePorts_ends hvalid slot port hupdate).of_ok hrun
    exact timesOut_updatePorts hvalid hfault hport hslot update
  resumes := by
    refine .of_ends
      (fun s => port.toNat < PortVector.width ∧ t.geometry.checkSlot slot = .ok () ∧
        s.bus.Present slot)
      (fun s => PartlyLoaded s slot ((s.bus.content slot).entry.withPorts update))
      (fun s => (updatePorts_ends hvalid slot port hupdate).mono
        (fun _ _ h => ⟨⟨h.1, h.2.1, h.2.2.1⟩, h.2.2.2⟩) ?_) ?_ ?_
    · rintro e s' (⟨h, -⟩ | ⟨-, ⟨h, -⟩ | ⟨-, ⟨-, h, -⟩ | ⟨he, h | ⟨-, h⟩⟩⟩⟩)
      · exact Or.inl fun haccepts => h haccepts.1
      · exact Or.inl fun haccepts => nomatch haccepts.2.1.symm.trans h
      · exact Or.inl fun haccepts => h haccepts.2.2
      · exact Or.inr ⟨he, [], List.nil_prefix, h.trans (s.bus.loaded_nil slot _).symm⟩
      · exact Or.inr ⟨he, h⟩
    · exact fun s f hf haccepts => ⟨haccepts.1, haccepts.2.1, haccepts.2.2.congr hf⟩
    · rintro s s' f f' r a ⟨hport, hslot, hpresent⟩ hs' hf hstops hr
      rw [Device.content_congr hf] at hstops
      obtain ⟨done, hdone, h⟩ := hstops.congr hf hr
      have hmax := (Geometry.checkSlot_eq_ok_iff.mp hslot).2
      have hcheck := check_withPorts (s.bus.check_content slot) (hupdate hport)
      refine ⟨⟨hport, hslot, hpresent.of_loaded hmax h⟩, fun b r' hr' => ⟨rfl, ?_⟩⟩
      have hentry : (r.bus.content slot).entry.withPorts update =
          (s.bus.content slot).entry.withPorts update := by
        rw [Device.entry_of_partlyLoaded hmax hcheck rfl rfl hdone h]
        split
        · exact Entry.withPorts_withPorts hagain _
        · rfl
      rw [hentry] at hr'
      exact hr'.trans ((Device.loaded_of_loaded hdone h).trans hs'.symm)

end Table

end Tcam

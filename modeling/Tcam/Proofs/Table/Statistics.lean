import Tcam.Proofs.Table.Composition

/-!
# What the statistics of a table count

Two of the counts are of errors, and every session reports exactly the error that it
ends with.  The other four are of operations that are complete, while the history of
the device has the commands that were executed.  A session that gives a result has
counted every command that completes an operation; one that a failure of the hardware
breaks off may have left the last of them out, and only that one
(`tallied_of_basic`).
-/

namespace Tcam

/-- The counts of complete operations. -/
inductive Counter where
  | flushes
  | loads
  | getNext
  | reads
  deriving DecidableEq, Repr

namespace Counter

/-- The count in the statistics. -/
def value (s : Stats) : Counter → Nat
  | flushes => s.flushes
  | loads => s.loads
  | getNext => s.getNext
  | reads => s.reads

/-- The statistics with one more in the count. -/
def bump : Counter → Stats → Stats
  | flushes => fun s => { s with flushes := s.flushes + 1 }
  | loads => fun s => { s with loads := s.loads + 1 }
  | getNext => fun s => { s with getNext := s.getNext + 1 }
  | reads => fun s => { s with reads := s.reads + 1 }

/-- The count of the operation that the command completes.  A load ends with the key
page and a read with the action page. -/
def of? (c : Command) : Option Counter :=
  match c.opcode, c.page with
  | .flushAll, _ | .flushEntry, _ => some flushes
  | .load, .key => some loads
  | .getNext, _ => some getNext
  | .read, .action => some reads
  | _, _ => none

/-- How many commands of the log complete an operation of this count. -/
def executed (log : List Command) (k : Counter) : Nat :=
  log.countP fun c => of? c == some k

theorem value_bump (s : Stats) (j k : Counter) :
    k.value (j.bump s) = k.value s + [j].count k := by
  cases j <;> cases k <;> rfl

/-- Every count counts something else. -/
theorem length_eq_counts (l : List Counter) :
    l.length = l.count flushes + l.count loads + l.count getNext + l.count reads := by
  induction l with
  | nil => rfl
  | cons j l ih =>
      rw [List.length_cons, ih]
      cases j <;> simp <;> omega

theorem executed_append (commands log : List Command) (k : Counter) :
    k.executed (commands ++ log) = k.executed log + (commands.filterMap of?).count k := by
  unfold executed
  rw [List.countP_append, List.count_filterMap, Nat.add_comm]

end Counter

namespace Error

def isTransport : Error → Bool
  | transport _ => true
  | _ => false

def isBusyTimeout : Error → Bool
  | busyTimeout _ _ => true
  | _ => false

/-- The failures of the hardware are those that the statistics count. -/
theorem countP_isRetryable (errors : List Error) :
    errors.countP isRetryable = errors.countP isTransport + errors.countP isBusyTimeout := by
  induction errors with
  | nil => rfl
  | cons e errors ih =>
      simp only [List.countP_cons, ih]
      cases e <;> simp [isRetryable, isTransport, isBusyTimeout] <;> omega

end Error

namespace Stats

/-- The statistics after an error was reported. -/
def failed (s : Stats) : Error → Stats
  | .transport _ => { s with transportErrors := s.transportErrors + 1 }
  | .busyTimeout _ _ => { s with busyTimeouts := s.busyTimeouts + 1 }
  | _ => s

theorem failed_transportErrors (s : Stats) (e : Error) :
    (s.failed e).transportErrors = s.transportErrors + [e].countP Error.isTransport := by
  cases e <;> rfl

theorem failed_busyTimeouts (s : Stats) (e : Error) :
    (s.failed e).busyTimeouts = s.busyTimeouts + [e].countP Error.isBusyTimeout := by
  cases e <;> rfl

theorem value_failed (s : Stats) (e : Error) (k : Counter) : k.value (s.failed e) = k.value s := by
  cases e <;> cases k <;> rfl

end Stats

namespace Session

variable {σ α β : Type}

/-- The session counts the error that it ends with and nothing else. -/
def Reports (m : Session σ α) : Prop :=
  ∀ s, match m s with
    | .ok _ s' => s'.stats = s.stats
    | .error e s' => s'.stats = s.stats.failed e

theorem reports_pure (a : α) : (pure a : Session σ α).Reports :=
  fun _ => rfl

theorem reports_onBus (access : EStateM RegError σ α) : (onBus access).Reports := by
  intro s
  unfold onBus
  cases access s.bus with
  | ok a d => rfl
  | error e d => rfl

theorem reports_enter (phase : Phase) : (enter phase : Session σ Unit).Reports :=
  fun _ => rfl

theorem Reports.bind {m : Session σ α} {f : α → Session σ β} (hm : m.Reports)
    (hf : ∀ a, (f a).Reports) : (m >>= f).Reports := by
  intro s
  have hfirst := hm s
  change match EStateM.bind m f s with
    | .ok _ s' => _
    | .error e s' => _
  unfold EStateM.bind
  cases hrun : m s with
  | ok a s₁ =>
      rw [hrun] at hfirst
      have hsecond := hf a s₁
      rw [hfirst] at hsecond
      exact hsecond
  | error e s₁ =>
      rw [hrun] at hfirst
      exact hfirst

theorem Reports.settled {m : Session σ α} (hm : m.Reports) : m.settled.Reports := by
  intro s
  have hrun := hm s
  unfold Session.settled
  cases h : m s with
  | ok a s' =>
      rw [h] at hrun
      exact hrun
  | error e s' =>
      rw [h] at hrun
      exact hrun

theorem Reports.forM {ι : Type} {f : ι → Session σ Unit} (hf : ∀ i, (f i).Reports)
    (l : List ι) : (l.forM f).Reports := by
  induction l with
  | nil => exact reports_pure ()
  | cons i l ih => exact (hf i).bind fun _ => ih

theorem Reports.foldlM {ι : Type} {f : β → ι → Session σ β} (hf : ∀ b i, (f b i).Reports)
    (l : List ι) (b : β) : (l.foldlM f b).Reports := by
  induction l generalizing b with
  | nil => exact reports_pure b
  | cons i l ih =>
      rw [List.foldlM_cons]
      exact (hf b i).bind ih

end Session

namespace Table

open Session (Ends)

section Reports

variable {σ : Type} [RegisterBus σ] (t : Table)

theorem reports_poll (n : Nat) : (t.poll n : Session σ Unit).Reports := by
  induction n with
  | zero => exact fun _ => rfl
  | succ n ih =>
      rw [poll]
      refine (Session.reports_onBus _).bind fun busy => ?_
      split
      · exact Session.reports_pure ()
      · exact ih

theorem reports_command (opcode : Opcode) (page : Page) (index : SlotIndex) :
    (t.command opcode page index : Session σ Unit).Reports := by
  rw [command_eq]
  refine ((Session.reports_enter _).bind fun _ => ?_).settled
  refine (t.reports_poll _).bind fun _ => (Session.reports_onBus _).bind fun _ => ?_
  exact (Session.reports_enter _).bind fun _ => t.reports_poll _

theorem reports_writePage {n : Nat} (page : Registers n) :
    (t.writePage page : Session σ Unit).Reports :=
  .forM (fun _ => Session.reports_onBus _) _

theorem reports_readPage (n : Nat) : (t.readPage n : Session σ (Registers n)).Reports :=
  .foldlM (fun _ _ => (Session.reports_onBus _).bind fun _ => Session.reports_pure _) _ _

theorem reports_registersAreZero (l : List Nat) :
    (t.registersAreZero l : Session σ Bool).Reports := by
  induction l with
  | nil => exact Session.reports_pure true
  | cons i l ih =>
      refine (Session.reports_onBus _).bind fun word => ?_
      split
      · exact ih
      · exact Session.reports_pure false

theorem reports_isMiss (found : SlotIndex) : (t.isMiss found : Session σ Bool).Reports := by
  unfold isMiss
  split
  · exact t.reports_registersAreZero _
  · exact Session.reports_pure false

end Reports

/-! ## What is counted and what is left out -/

section Posted

variable {g : Geometry} {s s₁ s₂ s₃ : Table.State (Device g)} {errors errors' : List Error}
  {left left' : List Counter}

/-- Between the two states the errors were reported and counted.  The commands that
completed an operation were counted as well, but for those in `left`. -/
structure Posted (s s' : Table.State (Device g)) (errors : List Error) (left : List Counter) :
    Prop where
  transportErrors : s'.stats.transportErrors =
    s.stats.transportErrors + errors.countP Error.isTransport
  busyTimeouts : s'.stats.busyTimeouts = s.stats.busyTimeouts + errors.countP Error.isBusyTimeout
  balance : ∀ k : Counter, k.executed s'.bus.history + k.value s.stats =
    k.executed s.bus.history + k.value s'.stats + left.count k

namespace Posted

theorem refl (s : Table.State (Device g)) : Posted s s [] [] :=
  ⟨rfl, rfl, fun _ => rfl⟩

theorem trans (h : Posted s₁ s₂ errors left) (h' : Posted s₂ s₃ errors' left') :
    Posted s₁ s₃ (errors ++ errors') (left ++ left') := by
  refine ⟨?_, ?_, fun k => ?_⟩
  · rw [h'.transportErrors, h.transportErrors, List.countP_append, Nat.add_assoc]
  · rw [h'.busyTimeouts, h.busyTimeouts, List.countP_append, Nat.add_assoc]
  · have hfirst := h.balance k
    have hsecond := h'.balance k
    rw [List.count_append]
    omega

/-- What is left out may be read off the log if the statistics have not changed. -/
theorem of_stats (hstats : s₂.stats = s₁.stats)
    (hlog : ∀ k : Counter, k.executed s₂.bus.history = k.executed s₁.bus.history + left.count k) :
    Posted s₁ s₂ [] left := by
  refine ⟨congrArg Stats.transportErrors hstats, congrArg Stats.busyTimeouts hstats, fun k => ?_⟩
  rw [hlog, hstats]
  omega

theorem of_failed {e : Error} (hstats : s₂.stats = s₁.stats.failed e)
    (hlog : ∀ k : Counter, k.executed s₂.bus.history = k.executed s₁.bus.history + left.count k) :
    Posted s₁ s₂ [e] left := by
  refine ⟨?_, ?_, fun k => ?_⟩
  · rw [hstats, Stats.failed_transportErrors]
  · rw [hstats, Stats.failed_busyTimeouts]
  · rw [hlog, hstats, Stats.value_failed]
    omega

/-- Counting an operation settles what was left out. -/
theorem count {k : Counter} (h : Posted s₁ s₂ errors [k]) :
    Posted s₁ { s₂ with stats := k.bump s₂.stats } errors [] := by
  have hkept : ∀ s : Stats, (k.bump s).transportErrors = s.transportErrors ∧
      (k.bump s).busyTimeouts = s.busyTimeouts := by
    intro s
    cases k <;> exact ⟨rfl, rfl⟩
  refine ⟨?_, ?_, fun j => ?_⟩
  · rw [(hkept _).1, h.transportErrors]
  · rw [(hkept _).2, h.busyTimeouts]
  · rw [h.balance, Counter.value_bump, List.count_nil]
    omega

/-- The phase of the table is not in the books. -/
theorem idle (h : Posted s₁ s₂ errors left) : Posted s₁ { s₂ with phase := .idle } errors left :=
  ⟨h.transportErrors, h.busyTimeouts, h.balance⟩

/-- An error that the statistics do not count. -/
theorem of_not_retryable {e : Error} (he : e.isRetryable = false) (h : Posted s₁ s₂ [e] left) :
    Posted s₁ s₂ [] left := by
  cases e with
  | transport => exact nomatch he
  | busyTimeout => exact nomatch he
  | _ => exact ⟨h.transportErrors, h.busyTimeouts, h.balance⟩

end Posted

/-- Between the two states the errors were reported and counted, and each failure of the
hardware has left one command out at most. -/
def Charged (s : Table.State (Device g)) (errors : List Error) (s' : Table.State (Device g)) :
    Prop :=
  ∃ left, Posted s s' errors left ∧ left.length ≤ errors.countP Error.isRetryable

theorem Posted.charged (h : Posted s₁ s₂ errors []) : Charged s₁ errors s₂ :=
  ⟨[], h, Nat.zero_le _⟩

theorem Charged.trans (h : Charged s₁ errors s₂) (h' : Charged s₂ errors' s₃) :
    Charged s₁ (errors ++ errors') s₃ := by
  obtain ⟨left, hposted, hleft⟩ := h
  obtain ⟨left', hposted', hleft'⟩ := h'
  refine ⟨left ++ left', hposted.trans hposted', ?_⟩
  rw [List.length_append, List.countP_append]
  exact Nat.add_le_add hleft hleft'

theorem Charged.idle (h : Charged s₁ errors s₂) : Charged s₁ errors { s₂ with phase := .idle } := by
  obtain ⟨left, hposted, hleft⟩ := h
  exact ⟨left, hposted.idle, hleft⟩

/-- A failure of the hardware pays for one command. -/
theorem charged_of_retryable {e : Error} (he : e.isRetryable = true) (h : Posted s₁ s₂ [e] left)
    (hleft : left.length ≤ 1) : Charged s₁ [e] s₂ := by
  refine ⟨left, h, ?_⟩
  rw [List.countP_singleton, if_pos he]
  exact hleft

/-- Any other error leaves nothing out. -/
theorem Charged.posted {e : Error} (h : Charged s₁ [e] s₂) (he : e.isRetryable = false) :
    Posted s₁ s₂ [] [] := by
  obtain ⟨left, hposted, hleft⟩ := h
  rw [List.countP_singleton, he] at hleft
  obtain rfl := List.eq_nil_of_length_eq_zero (Nat.le_zero.mp hleft)
  exact hposted.of_not_retryable he

theorem charged_of_throw {e : Error} (he : e.isRetryable = false) : Charged s [e] s := by
  refine Posted.charged (.of_failed ?_ fun _ => rfl)
  cases e with
  | transport => exact nomatch he
  | busyTimeout => exact nomatch he
  | _ => rfl

end Posted

/-! ## Sessions -/

variable {t : Table} {s : Table.State (Device t.geometry)} {limit : Nat} {α β : Type}

/-- The session counts what it executes, but for the commands in `left`. -/
abbrev Tallied (limit : Nat) (left : List Counter) (m : Session (Device t.geometry) α)
    (s : Table.State (Device t.geometry)) : Prop :=
  Ends limit m s (fun _ s' => Posted s s' [] left) (fun e s' => Charged s [e] s')

/-- The session executes nothing, and it fails for the hardware only. -/
abbrev Quiet (limit : Nat) (m : Session (Device t.geometry) α)
    (s : Table.State (Device t.geometry)) : Prop :=
  Ends limit m s (fun _ s' => Posted s s' [] [])
    (fun e s' => e.isRetryable = true ∧ Posted s s' [e] [])

/-- What a session leaves, together with what it has done to the statistics. -/
theorem ends_reporting {m : Session (Device t.geometry) α}
    {Q : α → Table.State (Device t.geometry) → Prop}
    {E : Error → Table.State (Device t.geometry) → Prop} (h : Ends limit m s Q E)
    (hm : m.Reports) :
    Ends limit m s (fun a s' => s'.stats = s.stats ∧ Q a s')
      (fun e s' => s'.stats = s.stats.failed e ∧ E e s') := by
  have hreports := hm s
  unfold Ends at h ⊢
  cases hrun : m s with
  | ok a s' =>
      rw [hrun] at h hreports
      exact ⟨h.1, hreports, h.2⟩
  | error e s' =>
      rw [hrun] at h hreports
      exact ⟨h.1, hreports, h.2⟩

theorem quiet_of_ends {m : Session (Device t.geometry) α}
    (h : Ends limit m s (fun _ s' => s'.bus.history = s.bus.history)
      (fun e s' => e.isRetryable = true ∧ s'.bus.history = s.bus.history))
    (hm : m.Reports) : Quiet limit m s := by
  refine (ends_reporting h hm).mono ?_ ?_
  · rintro _ s' ⟨hstats, hhistory⟩
    exact .of_stats hstats fun k => congrArg k.executed hhistory
  · rintro e s' ⟨hstats, he, hhistory⟩
    exact ⟨he, .of_failed hstats fun k => congrArg k.executed hhistory⟩

theorem Quiet.tallied {m : Session (Device t.geometry) α} (h : Quiet limit m s) :
    Tallied limit [] m s :=
  h.mono (fun _ _ hm => hm) fun _ _ hm => charged_of_retryable hm.1 hm.2 (Nat.zero_le _)

section Rules

variable {m : Session (Device t.geometry) α} {left : List Counter}

/-- First `m`, which counts everything and also makes sure of `Q`, then `f`. -/
theorem tallied_bind {f : α → Session (Device t.geometry) β}
    {Q : α → Table.State (Device t.geometry) → Prop}
    (hm : Ends limit m s (fun a s' => Q a s' ∧ Posted s s' [] [])
      (fun e s' => Charged s [e] s'))
    (hf : ∀ a s₁, Q a s₁ → Tallied limit left (f a) s₁) : Tallied limit left (m >>= f) s := by
  refine hm.bind (fun _ _ h => h) fun a s₁ h₁ => ?_
  exact (hf a s₁ h₁.1).mono (fun _ _ h => h₁.2.trans h) fun _ _ h => h₁.2.charged.trans h

theorem Tallied.bind {f : α → Session (Device t.geometry) β} (hm : Tallied limit [] m s)
    (hf : ∀ a s₁, Tallied limit left (f a) s₁) : Tallied limit left (m >>= f) s :=
  tallied_bind (Q := fun _ _ => True) (hm.mono (fun _ _ h => ⟨trivial, h⟩) fun _ _ h => h)
    fun a s₁ _ => hf a s₁

/-- First `m`, which may leave a command out, then `f`, which executes none. -/
theorem Tallied.bind_quiet {f : α → Session (Device t.geometry) β} (hm : Tallied limit left m s)
    (hleft : left.length ≤ 1) (hf : ∀ a s₁, Quiet limit (f a) s₁) :
    Tallied limit left (m >>= f) s := by
  refine Ends.bind hm (fun _ _ h => h) fun a s₁ h₁ => ?_
  refine (hf a s₁).mono (fun _ s' h => ?_) fun e s' h => ?_
  · exact List.append_nil left ▸ h₁.trans h
  · exact charged_of_retryable h.1 (h₁.trans h.2) (by rwa [List.append_nil])

/-- What `m` has left out is counted before the session goes on. -/
theorem Tallied.count {f : α → Session (Device t.geometry) β} {k : Counter}
    (hm : Tallied limit [k] m s) (hf : ∀ a s₁, Tallied limit left (f a) s₁) :
    Tallied limit left (m >>= fun a => Session.count k.bump >>= fun _ => f a) s := by
  refine Ends.bind hm (fun _ _ h => h) fun a s₁ h₁ => ?_
  have hcount : Ends limit (Session.count k.bump) s₁
      (fun _ s₂ => s₂ = { s₁ with stats := k.bump s₁.stats }) (fun _ _ => False) :=
    ⟨id, rfl⟩
  refine hcount.bind (fun _ _ => False.elim) ?_
  rintro _ _ rfl
  exact (hf a _).mono (fun _ _ h => h₁.count.trans h) fun _ _ h => h₁.count.charged.trans h

/-- The session ends with the count. -/
theorem Tallied.counted {m : Session (Device t.geometry) Unit} {k : Counter}
    (hm : Tallied limit [k] m s) :
    Tallied limit [] (m >>= fun _ => Session.count k.bump) s :=
  hm.count (f := fun _ => pure ()) fun _ s₁ => Ends.pure (.refl s₁)

theorem tallied_check {x : Except Error α} {f : α → Session (Device t.geometry) β}
    (hx : ∀ e, x = .error e → e.IsRefusal) (hf : ∀ a, x = .ok a → Tallied limit left (f a) s) :
    Tallied limit left (ofExcept x >>= f) s :=
  Ends.check (fun e h => ⟨(hx e h).not_retryable, charged_of_throw (hx e h).not_retryable⟩) hf

end Rules

/-- A command leaves out what it completes. -/
theorem command_tallied {opcode : Opcode} {page : Page} {index : SlotIndex}
    (hruns : s.bus.Runs ⟨opcode, page, index⟩) :
    Tallied t.pollLimit ([⟨opcode, page, index⟩].filterMap Counter.of?)
      (t.command opcode page index) s := by
  have hlog {s' : Table.State (Device t.geometry)}
      (h : s'.bus.Agrees (s.bus.perform ⟨opcode, page, index⟩)) (k : Counter) :
      k.executed s'.bus.history = k.executed s.bus.history +
        ([⟨opcode, page, index⟩].filterMap Counter.of?).count k := by
    rw [h.history, Device.perform_eq]
    exact Counter.executed_append [_] _ k
  refine (ends_reporting (command_ends hruns) (t.reports_command _ _ _)).mono ?_ ?_
  · rintro _ s' ⟨hstats, h⟩
    exact .of_stats hstats (hlog h)
  · rintro e s' ⟨hstats, he, h | h⟩
    · exact Posted.charged (.of_failed hstats fun k => congrArg k.executed h.history)
    · exact charged_of_retryable he (.of_failed hstats (hlog h)) (List.length_filterMap_le _ _)

theorem selectActionSubBlock_tallied :
    Ends limit t.selectActionSubBlock s
      (fun _ s' => ActionSelected s'.bus ∧ Posted s s' [] [])
      (fun e s' => Charged s [e] s') := by
  refine (ends_reporting selectActionSubBlock_ends (Session.reports_onBus _)).mono ?_ ?_
  · rintro _ s' ⟨hstats, h⟩
    exact ⟨selected_of_agrees h, .of_stats hstats fun k => congrArg k.executed h.history⟩
  · rintro e s' ⟨hstats, -, h⟩
    exact Posted.charged (.of_failed hstats fun k => congrArg k.executed h.history)

theorem readPage_quiet {n : Nat} (hn : n ≤ dataRegisters) : Quiet limit (t.readPage n) s :=
  quiet_of_ends ((readPage_ends hn).mono (fun _ _ h => h.2.history)
    fun _ _ h => ⟨h.1, h.2.history⟩) (t.reports_readPage n)

theorem readOperation_quiet : Quiet limit (t.readRegister operationRegister) s :=
  quiet_of_ends (readOperation_ends.mono (fun _ _ h => h.2.history)
    fun _ _ h => ⟨h.1, h.2.history⟩) (Session.reports_onBus _)

theorem isMiss_quiet (found : SlotIndex) : Quiet limit (t.isMiss found) s :=
  quiet_of_ends ((isMiss_ends found).mono (fun _ _ h => h.2.history)
    fun _ _ h => ⟨h.1, h.2.history⟩) (t.reports_isMiss found)

/-! ## Basic operations -/

/-- The pages of an entry complete one load. -/
theorem filterMap_loads_loadOrder (g : Geometry) (slot : SlotIndex) :
    (Device.loads slot g.loadOrder).filterMap Counter.of? = [.loads] := by
  unfold Geometry.loadOrder
  cases g.hasWindowPage <;> rfl

section Basic

variable (hvalid : t.geometry.Valid)

include hvalid

theorem flushAll_tallied : Tallied t.pollLimit [] t.flushAll s := by
  have hzero : 0#16 ≤ t.geometry.maxIndex := BitVec.le_def.mpr (Nat.zero_le _)
  exact (command_tallied (runs_key hvalid .flushAll hzero s.bus)).counted

theorem flushEntry_tallied (slot : SlotIndex) :
    Tallied t.pollLimit [] (t.flushEntry slot) s := by
  refine tallied_check (fun _ => Geometry.isRefusal_of_checkSlot) fun _ hslot => ?_
  have hmax := (Geometry.checkSlot_eq_ok_iff.mp hslot).2
  exact (command_tallied (runs_key hvalid .flushEntry hmax s.bus)).counted

theorem loadPages_tallied {slot : SlotIndex} (hslot : slot ≤ t.geometry.maxIndex)
    (image : SlotImage) (hselected : ActionSelected s.bus) :
    Tallied t.pollLimit [.loads]
      (t.geometry.loadOrder.forM fun page => t.loadPage slot page image) s := by
  have hlog {s' : Table.State (Device t.geometry)} {pages : List Page}
      (h : s.bus.Loads slot image pages s'.bus) (k : Counter) :
      k.executed s'.bus.history = k.executed s.bus.history +
        ((Device.loads slot pages).filterMap Counter.of?).count k := by
    rw [h.history, Counter.executed_append, List.filterMap_reverse, List.count_reverse]
  have hreports : (t.geometry.loadOrder.forM fun page =>
      (t.loadPage slot page image : Session (Device t.geometry) Unit)).Reports :=
    .forM (fun _ => (t.reports_writePage _).bind fun _ => t.reports_command _ _ _) _
  refine (ends_reporting (loadPages_ends hvalid hslot image _ hselected) hreports).mono ?_ ?_
  · rintro _ s' ⟨hstats, h⟩
    exact filterMap_loads_loadOrder t.geometry slot ▸ .of_stats hstats (hlog h)
  · -- What was loaded begins the load, so it has the key page once at most.
    rintro e s' ⟨hstats, he, done, hdone, h⟩
    refine charged_of_retryable he (.of_failed hstats (hlog h)) ?_
    have hbegins : Device.loads slot done <+: Device.loads slot t.geometry.loadOrder :=
      hdone.map _
    have hle := (hbegins.filterMap Counter.of?).length_le
    rwa [filterMap_loads_loadOrder] at hle

theorem loadEntry_tallied (slot : SlotIndex) (entry : Entry) :
    Tallied t.pollLimit [] (t.loadEntry slot entry) s := by
  rw [loadEntry_eq]
  refine tallied_check (fun _ => Geometry.isRefusal_of_checkSlot) fun _ hslot => ?_
  refine tallied_check (fun _ => Entry.isRefusal_of_check) fun _ _ => ?_
  have hmax := (Geometry.checkSlot_eq_ok_iff.mp hslot).2
  refine tallied_bind selectActionSubBlock_tallied fun _ s₁ hselected => ?_
  exact (loadPages_tallied hvalid hmax _ hselected).counted

theorem fetchPage_tallied {slot : SlotIndex} (hslot : slot ≤ t.geometry.maxIndex) (page : Page)
    (hselected : page = .action → ActionSelected s.bus) :
    Tallied t.pollLimit ([⟨.read, page, slot⟩].filterMap Counter.of?) (t.fetchPage slot page) s := by
  have hruns : s.bus.Runs ⟨.read, page, slot⟩ :=
    Device.runs_of_index_le hvalid.maxIndex_le hslot hselected
  refine (command_tallied hruns).bind_quiet (List.length_filterMap_le _ _) fun _ _ => ?_
  exact readPage_quiet page.registers_le

theorem fetchWindow_tallied {slot : SlotIndex} (hslot : slot ≤ t.geometry.maxIndex) :
    Tallied t.pollLimit [] (t.fetchWindow slot) s := by
  unfold fetchWindow
  split
  · exact fetchPage_tallied hvalid hslot .window nofun
  · exact Ends.pure (.refl s)

theorem readEntry_tallied (slot : SlotIndex) :
    Tallied t.pollLimit [] (t.readEntry slot) s := by
  rw [readEntry_eq]
  refine tallied_check (fun _ => Geometry.isRefusal_of_checkSlot) fun _ hslot => ?_
  have hmax := (Geometry.checkSlot_eq_ok_iff.mp hslot).2
  refine Tallied.bind (fetchPage_tallied hvalid hmax .key nofun) fun key s₁ => ?_
  refine Tallied.bind (fetchWindow_tallied hvalid hmax) fun window s₂ => ?_
  refine tallied_bind selectActionSubBlock_tallied fun _ s₃ hselected => ?_
  refine Tallied.count (k := .reads) (fetchPage_tallied hvalid hmax .action fun _ => hselected) ?_
  exact fun _ s₄ => Ends.pure (.refl s₄)

theorem getNextEntry_tallied (slot : SlotIndex) :
    Tallied t.pollLimit [] (t.getNextEntry slot) s := by
  rw [getNextEntry_eq]
  refine tallied_check (fun _ => isRefusal_of_checkStart) fun _ hstart => ?_
  have hruns := runs_key hvalid .getNext (checkStart_eq_ok_iff.mp hstart) s.bus
  refine Tallied.count (k := .getNext) (command_tallied hruns) fun _ s₁ => ?_
  refine readOperation_quiet.tallied.bind fun word s₂ => ?_
  refine (isMiss_quiet _).tallied.bind fun miss s₃ => ?_
  cases miss with
  | true => exact Ends.throw rfl (charged_of_throw rfl)
  | false => exact readEntry_tallied hvalid _

/-- However an operation is put together, it has counted what it has executed if it gives
a result.  If the hardware breaks it off, one command at most is not counted. -/
theorem tallied_of_basic {α : Type} {m : Script α} (h : Composed t.Basic m)
    (s : Table.State (Device t.geometry)) : Tallied t.pollLimit [] (m (Device t.geometry)) s := by
  induction h generalizing s with
  | part h =>
      cases h with
      | flushAll => exact flushAll_tallied hvalid
      | flushEntry slot => exact flushEntry_tallied hvalid slot
      | loadEntry slot entry => exact loadEntry_tallied hvalid slot entry
      | readEntry slot => exact readEntry_tallied hvalid slot
      | getNextEntry slot => exact getNextEntry_tallied hvalid slot
      | throw e he => exact Ends.throw he (charged_of_throw he)
  | pure a => exact Ends.pure (.refl s)
  | bind _ _ ihm ihf => exact (ihm s).bind ihf
  | catchMiss _ _ ihm ihmiss =>
      refine (ihm s).catchMiss (fun i s₁ h₁ => ?_) (fun _ _ h _ => h)
      -- A miss is no failure of the hardware, so everything has been counted.
      have hposted : Posted s s₁ [] [] := h₁.posted rfl
      exact (ihmiss s₁).mono (fun _ _ h => hposted.trans h) fun _ _ h => hposted.charged.trans h
  | settled _ ih => exact ((ih s).mono (fun _ _ h => h.idle) fun _ _ h => h.idle).settled

end Basic

end Table

end Tcam

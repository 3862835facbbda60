import Tcam.Proofs.Device.Loading

/-!
# What the history of a device tells

The operations of a table execute commands in five ways only, wherever they break
off.  Whatever they do, the history tells which slots are valid, and every load of
a key page comes right after the loads of the other pages of its slot
(`Chronicled`).
-/

namespace Tcam

/-- The command decides whether the slot is valid. -/
def Command.decides (slot : SlotIndex) (c : Command) : Bool :=
  match c.opcode with
  | .flushAll => true
  | .flushEntry => c.index == slot
  | .load => c.page == .key && c.index == slot
  | .getNext | .read => false

/-- The commands right before a load of the key page of a slot, latest first. -/
def Geometry.leadIn (g : Geometry) (slot : SlotIndex) : List Command :=
  if g.hasWindowPage then [⟨.load, .window, slot⟩, ⟨.load, .action, slot⟩]
  else [⟨.load, .action, slot⟩]

/-- In the log, latest first, no key page is loaded before the other pages. -/
def Geometry.LoadsInOrder (g : Geometry) (log : List Command) : Prop :=
  ∀ slot earlier, ⟨.load, .key, slot⟩ :: earlier <:+ log → g.leadIn slot <+: earlier

theorem Geometry.LoadsInOrder.cons {g : Geometry} {log : List Command} {c : Command}
    (h : g.LoadsInOrder log)
    (hc : ∀ slot, c = ⟨.load, .key, slot⟩ → g.leadIn slot <+: log) : g.LoadsInOrder (c :: log) := by
  intro slot earlier hsuffix
  rcases List.suffix_cons_iff.mp hsuffix with heq | hold
  · obtain ⟨rfl, rfl⟩ := List.cons.inj heq
    exact hc slot rfl
  · exact h slot earlier hold

namespace Device

variable {g : Geometry} {d d' : Device g}

/-- One basic operation has executed its commands, or the first of them. -/
inductive Executes (d d' : Device g) : Prop
  | flushAll (hslots : d'.slots = Vector.replicate _ .empty)
      (hhistory : d'.history = ⟨.flushAll, .key, 0#16⟩ :: d.history)
  | flushEntry (slot : SlotIndex) (hslots : d'.slots = (d.flushed slot).slots)
      (hhistory : d'.history = ⟨.flushEntry, .key, slot⟩ :: d.history)
  | load (slot : SlotIndex) (entry : Entry) (pages : List Page)
      (hslot : g.checkSlot slot = .ok ()) (hpages : pages <+: g.loadOrder)
      (h : d.Loads slot (.ofEntry entry) pages d')
  | read (slot : SlotIndex) (page : Page) (hpage : page = .window → g.hasWindowPage = true)
      (hslots : d'.slots = d.slots) (hhistory : d'.history = ⟨.read, page, slot⟩ :: d.history)
  | getNext (slot : SlotIndex) (hslots : d'.slots = d.slots)
      (hhistory : d'.history = ⟨.getNext, .key, slot⟩ :: d.history)

/-- The history of the device agrees with its slots and has the loads in order. -/
structure Chronicled (d : Device g) : Prop where
  isValid_iff : ∀ slot, d.isValid slot = true ↔
    d.history.find? (Command.decides slot) = some ⟨.load, .key, slot⟩
  ordered : g.LoadsInOrder d.history
  noWindow : g.hasWindowPage = false → ∀ c ∈ d.history, c.page ≠ .window

theorem Chronicled.congr (h : d.Chronicled) (hslots : d'.slots = d.slots)
    (hhistory : d'.history = d.history) : d'.Chronicled where
  isValid_iff slot := by
    rw [isValid_congr hslots, hhistory]
    exact h.isValid_iff slot
  ordered := hhistory ▸ h.ordered
  noWindow := hhistory ▸ h.noWindow

/-- A command that loads no page. -/
theorem Chronicled.command {c : Command} (h : d.Chronicled) (hload : c.opcode ≠ .load)
    (hpage : c.page = .window → g.hasWindowPage = true) (hhistory : d'.history = c :: d.history)
    (hvalid : ∀ slot, d'.isValid slot = true ↔ c.decides slot = false ∧ d.isValid slot = true) :
    d'.Chronicled where
  isValid_iff slot := by
    rw [hhistory, List.find?_cons, hvalid, h.isValid_iff]
    cases c.decides slot with
    | true =>
        refine iff_of_false nofun fun heq => hload ?_
        rw [Option.some.inj heq]
    | false => simp
  ordered := by
    rw [hhistory]
    refine h.ordered.cons fun slot hc => absurd ?_ hload
    rw [hc]
  noWindow hone := by
    rw [hhistory]
    intro c' hc' hwindow
    rcases List.mem_cons.mp hc' with rfl | hold
    · exact nomatch hone.symm.trans (hpage hwindow)
    · exact h.noWindow hone c' hold hwindow

/-- Among loads, the one of the key page decides. -/
theorem find?_loads (slot i : SlotIndex) (pages : List Page) :
    (loads slot pages).reverse.find? (Command.decides i) =
      if i = slot ∧ .key ∈ pages then some ⟨.load, .key, i⟩ else none := by
  induction pages with
  | nil => simp [loads]
  | cons page pages ih =>
      have hcons : (loads slot (page :: pages)).reverse =
          (loads slot pages).reverse ++ [⟨.load, page, slot⟩] := by
        simp [loads]
      rw [hcons, List.find?_append, ih]
      by_cases hi : i = slot
      · subst hi
        by_cases hkey : Page.key ∈ pages
        · simp [hkey]
        · cases page <;> simp [hkey, Command.decides]
      · have hne : (slot == i) = false := by
          simpa using Ne.symm hi
        simp [hi, hne, Command.decides]

/-- Loads of an initial part of the pages keep the order. -/
theorem loadsInOrder_loads {log : List Command} (h : g.LoadsInOrder log) (slot : SlotIndex)
    {pages : List Page} (hpages : pages <+: g.loadOrder) :
    g.LoadsInOrder ((loads slot pages).reverse ++ log) := by
  -- Only the last page of the order has to look back.
  have hother {log : List Command} (page : Page) (hpage : page ≠ .key) (h : g.LoadsInOrder log) :
      g.LoadsInOrder (⟨.load, page, slot⟩ :: log) := by
    refine h.cons fun i hi => absurd ?_ hpage
    exact congrArg Command.page hi
  have haction := hother .action nofun h
  rcases Geometry.mem_loadOrder_inits hpages with rfl | rfl | rfl | rfl
  · exact h
  · exact haction
  · exact hother .window nofun haction
  · unfold Geometry.loadOrder
    split
    · refine (hother .window nofun haction).cons ?_
      rintro i heq
      obtain rfl : slot = i := congrArg Command.index heq
      simp [Geometry.leadIn, *]
    · refine haction.cons ?_
      rintro i heq
      obtain rfl : slot = i := congrArg Command.index heq
      simp [Geometry.leadIn, *]

theorem Chronicled.loads {slot : SlotIndex} {entry : Entry} {pages : List Page}
    (h : d.Chronicled) (hslot : g.checkSlot slot = .ok ()) (hpages : pages <+: g.loadOrder)
    (hloads : d.Loads slot (.ofEntry entry) pages d') : d'.Chronicled where
  isValid_iff i := by
    rw [hloads.history, List.find?_append, find?_loads,
      isValid_of_loaded (Geometry.checkSlot_eq_ok_iff.mp hslot).2 hloads.slots, h.isValid_iff]
    by_cases hkey : i = slot ∧ Page.key ∈ pages
    · simp [hkey]
    · simp [hkey]
  ordered := hloads.history ▸ loadsInOrder_loads h.ordered slot hpages
  noWindow hone := by
    rw [hloads.history]
    intro c hc hwindow
    rcases List.mem_append.mp hc with hload | hold
    · obtain ⟨page, hpage, rfl⟩ := List.mem_map.mp (List.mem_reverse.mp hload)
      have hmem := hpages.subset hpage
      unfold Geometry.loadOrder at hmem
      obtain rfl : page = .window := hwindow
      simp [hone] at hmem
    · exact h.noWindow hone c hold hwindow

/-- What an operation executes leaves the history in agreement with the slots. -/
theorem Chronicled.executes (h : d.Chronicled) (hstep : Executes d d') : d'.Chronicled := by
  cases hstep with
  | flushAll hslots hhistory =>
      refine h.command (c := ⟨.flushAll, .key, 0#16⟩) nofun nofun hhistory fun i => ?_
      rw [isValid_of_flushedAll hslots]
      exact iff_of_false nofun nofun
  | flushEntry slot hslots hhistory =>
      refine h.command (c := ⟨.flushEntry, .key, slot⟩) nofun nofun hhistory fun i => ?_
      rw [isValid_of_flushed hslots]
      simp [Command.decides, ne_comm]
  | load slot entry pages hslot hpages hloads => exact h.loads hslot hpages hloads
  | read slot page hpage hslots hhistory =>
      refine h.command (c := ⟨.read, page, slot⟩) nofun hpage hhistory fun i => ?_
      rw [isValid_congr hslots]
      exact (and_iff_right rfl).symm
  | getNext slot hslots hhistory =>
      refine h.command (c := ⟨.getNext, .key, slot⟩) nofun nofun hhistory fun i => ?_
      rw [isValid_congr hslots]
      exact (and_iff_right rfl).symm

theorem chronicled_fresh (g : Geometry) : (fresh g).Chronicled where
  isValid_iff slot := by
    rw [isValid_of_flushedAll rfl]
    exact iff_of_false nofun nofun
  ordered := by
    intro slot earlier hsuffix
    exact nomatch List.suffix_nil.mp hsuffix
  noWindow _ _ hc := nomatch hc

end Device

end Tcam

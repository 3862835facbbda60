import Tcam.Proofs.Classifier.Refusal
import Tcam.Proofs.Table.Answers

/-!
# Walking through a table

A search answers the least valid slot after the given one, or that there is none.
So searching again and again, each time after the slot found last, goes through all
valid slots in ascending order (`getNextEntry_walks`).  The walk starts at the largest
index, after which the slots start over, and it can only tell that it is complete if
that slot is not valid itself.
-/

namespace Tcam

namespace Device

variable {g : Geometry} {d d' : Device g} {slot i : SlotIndex}

theorem mem_validSlots : i ∈ d.validSlots ↔ d.isValid i = true := by
  unfold validSlots
  rw [List.mem_filter, and_iff_right_iff_imp]
  intro hvalid
  have hle := BitVec.le_def.mp (le_maxIndex_of_isValid hvalid)
  refine List.mem_map.mpr ⟨i.toNat, List.mem_range.mpr (by omega), ?_⟩
  exact BitVec.eq_of_toNat_eq (by rw [BitVec.toNat_ofNat, Nat.mod_eq_of_lt i.isLt])

theorem pairwise_validSlots (d : Device g) : d.validSlots.Pairwise (· < ·) := by
  refine List.Pairwise.filter _ (List.pairwise_map.mpr ?_)
  refine List.pairwise_lt_range.imp_of_mem fun {j k} hj hk hlt => ?_
  rw [List.mem_range] at hj hk
  rw [BitVec.lt_def, ofNat_toNat_of_le (g := g) (by omega), ofNat_toNat_of_le (g := g) (by omega)]
  exact hlt

/-- The least valid slot that comes after `slot`. -/
structure NextValid (d : Device g) (slot i : SlotIndex) : Prop where
  valid : d.isValid i = true
  follows : SlotMap.Follows g slot i
  least : ∀ j, d.isValid j = true → SlotMap.Follows g slot j → i ≤ j

theorem NextValid.unique {j : SlotIndex} (h : d.NextValid slot i) (h' : d.NextValid slot j) :
    i = j :=
  BitVec.le_antisymm (h.least j h'.valid h'.follows) (h'.least i h.valid h.follows)

/-- If any valid slot comes after `slot`, one of them is the least. -/
theorem exists_nextValid (hi : d.isValid i = true) (hfollows : SlotMap.Follows g slot i) :
    ∃ j, d.NextValid slot j := by
  induction hn : i.toNat using Nat.strongRecOn generalizing i with
  | ind n ih =>
      by_cases hleast : ∀ j, d.isValid j = true → SlotMap.Follows g slot j → i ≤ j
      · exact ⟨i, hi, hfollows, hleast⟩
      · simp only [Classical.not_forall, BitVec.not_le] at hleast
        obtain ⟨j, hj, hfollows', hlt⟩ := hleast
        exact ih j.toNat (hn ▸ BitVec.lt_def.mp hlt) hj hfollows' rfl

theorem nextValid_congr (h : d'.slots = d.slots) : d'.NextValid slot i ↔ d.NextValid slot i := by
  have hvalid : d'.isValid = d.isValid := funext fun i => isValid_congr h i
  constructor
  · rintro ⟨hi, hfollows, hleast⟩
    exact ⟨hvalid ▸ hi, hfollows, hvalid ▸ hleast⟩
  · rintro ⟨hi, hfollows, hleast⟩
    exact ⟨hvalid ▸ hi, hfollows, hvalid ▸ hleast⟩

/-- A search finds the least valid slot that comes after the given one. -/
theorem finds_iff_nextValid (hd : (fresh g).Evolves d) (hslot : slot ≤ g.maxIndex) :
    d.Finds slot i ↔ d.NextValid slot i := by
  have hmarked : d.Marked := (marked_flushed rfl : (fresh g).Marked).evolves hd
  have hstart {j : SlotIndex} (hj : d.isValid j = true) :
      searchStart g slot ≤ j.toNat ↔ SlotMap.Follows g slot j :=
    SlotMap.searchStart_le_iff hslot (Geometry.checkSlot_eq_ok_iff.mp (hd.checkSlot hj)).1
  unfold Finds
  rw [firstAfter?_eq_some_iff, and_iff_left (hmarked.not_hidden i)]
  constructor
  · rintro ⟨hle, hi, hfirst⟩
    refine ⟨hi, (hstart hi).mp hle, fun j hj hfollows => BitVec.not_lt.mp fun hlt => ?_⟩
    exact nomatch hj.symm.trans (hfirst j ((hstart hj).mpr hfollows) hlt)
  · rintro ⟨hi, hfollows, hleast⟩
    refine ⟨(hstart hi).mpr hfollows, hi, fun j hj hlt => Bool.eq_false_iff.mpr fun hvalid => ?_⟩
    exact BitVec.not_le.mpr hlt (hleast j hvalid ((hstart hvalid).mp hj))

/-- The first valid slot follows the largest index. -/
theorem nextValid_head {rest : List SlotIndex} (h : d.validSlots = i :: rest) :
    d.NextValid g.maxIndex i where
  valid := mem_validSlots.mp (h ▸ List.mem_cons_self)
  follows := Or.inl rfl
  least j hj _ := by
    have hsorted := d.pairwise_validSlots
    have hmem := mem_validSlots.mpr hj
    rw [h] at hsorted hmem
    rcases List.mem_cons.mp hmem with rfl | hrest
    · exact BitVec.le_refl _
    · exact BitVec.le_of_lt (List.rel_of_pairwise_cons hsorted hrest)

/-- Of two neighbours among the valid slots the second follows the first. -/
theorem nextValid_neighbour {before rest : List SlotIndex}
    (h : d.validSlots = before ++ slot :: i :: rest) : d.NextValid slot i := by
  have hsorted := d.pairwise_validSlots
  rw [h, List.pairwise_append] at hsorted
  obtain ⟨-, hrest, hbefore⟩ := hsorted
  have hvalid : d.isValid i = true := mem_validSlots.mp (h ▸ by simp)
  have hlt : slot < i := List.rel_of_pairwise_cons hrest List.mem_cons_self
  refine ⟨hvalid, Or.inr hlt, fun j hj hfollows => ?_⟩
  have hslot : slot < j := by
    have hmax := le_maxIndex_of_isValid hvalid
    rcases hfollows with rfl | hslot
    · exact absurd hlt (BitVec.not_lt.mpr hmax)
    · exact hslot
  have hmem := mem_validSlots.mpr hj
  rw [h, List.mem_append, List.mem_cons, List.mem_cons] at hmem
  rcases hmem with hin | rfl | rfl | hin
  · have hle := hbefore j hin slot List.mem_cons_self
    bv_omega
  · bv_omega
  · exact BitVec.le_refl _
  · have hnext := (List.pairwise_cons.mp hrest).2
    exact BitVec.le_of_lt (List.rel_of_pairwise_cons hnext hin)

/-- No valid slot follows the last of them, unless it is the last slot of the table. -/
theorem not_follows_last {before : List SlotIndex} (h : d.validSlots = before ++ [slot])
    (hlast : slot ≠ g.maxIndex) (hi : d.isValid i = true) : ¬SlotMap.Follows g slot i := by
  have hsorted := d.pairwise_validSlots
  have hmem := mem_validSlots.mpr hi
  rw [h] at hsorted hmem
  rw [List.mem_append, List.mem_singleton] at hmem
  rintro (heq | hlt)
  · exact hlast heq
  rcases hmem with hin | rfl
  · have hlt' := (List.pairwise_append.mp hsorted).2.2 i hin slot List.mem_cons_self
    bv_omega
  · bv_omega

end Device

namespace Table

/-- What repeated searches answer, each after the slot found last.  They end with the
first that finds nothing. -/
def walk {σ : Type} [RegisterBus σ] (t : Table) :
    Nat → SlotIndex → Lock (Table.State σ) → List (Except Error Slot)
  | 0, _, _ => []
  | n + 1, cursor, l =>
    match (t.getNextEntry cursor).locked l with
    | .ok found l' => .ok found :: t.walk n found.index l'
    | .error e _ => [.error e]

section Ready

variable {t : Table} {d : Device t.geometry} {l l' : Lock (Table.State (Device t.geometry))}
  {slot i : SlotIndex}

/-- A search answers the least valid slot after the given one, or that there is none. -/
theorem Answers.getNextEntry (hvalid : t.geometry.Valid)
    (hd : (Device.fresh t.geometry).Evolves d) (h : Answers d l)
    (hslot : slot ≤ t.geometry.maxIndex) :
    (∃ i l', (t.getNextEntry slot).locked l = .ok (d.content i) l' ∧ d.NextValid slot i ∧
        Answers d l') ∨
      ∃ l', (t.getNextEntry slot).locked l = .error (.notFound slot) l' ∧
        ∀ i, ¬d.NextValid slot i := by
  have hfinds {i : SlotIndex} : l.content.bus.Finds slot i ↔ d.NextValid slot i :=
    (Device.finds_iff_nextValid (hd.of_slots h.slots) hslot).trans (Device.nextValid_congr h.slots)
  have hends : Transaction.Ends t.pollLimit (t.getNextEntry slot).locked l
      (fun found s' => s'.bus.slots = d.slots ∧ ∃ i, d.NextValid slot i ∧ found = d.content i)
      (fun e _ => e = .notFound slot ∧ (∀ i, ¬d.NextValid slot i) ∨ e.isRetryable = true) := by
    refine .locked h.usable ((getNextEntry_ends hvalid slot).mono ?_ ?_)
    · rintro found s' ⟨-, hslots, i, hi, rfl⟩
      exact ⟨hslots.trans h.slots, i, hfinds.mp hi, Device.content_congr h.slots i⟩
    · rintro e s' (⟨hstart, -⟩ | ⟨-, -, ⟨he, hnone⟩ | he⟩)
      · exact nomatch (checkStart_eq_ok_iff.mpr hslot).symm.trans hstart
      · exact Or.inl ⟨he, fun i hi => hnone i (hfinds.mpr hi)⟩
      · exact Or.inr he
  rcases hends.cases with
    ⟨found, l', hrun, hl', hready, hslots, i, hi, rfl⟩ | ⟨e, l', hrun, -, hready, he⟩
  · exact Or.inl ⟨i, l', hrun, hi, hl', hready h.ready, hslots⟩
  · rcases he with ⟨rfl, hnone⟩ | he
    · exact Or.inr ⟨l', hrun, hnone⟩
    · exact nomatch he.symm.trans (hready h.ready).2

theorem Answers.getNextEntry_of_nextValid (hvalid : t.geometry.Valid)
    (hd : (Device.fresh t.geometry).Evolves d) (h : Answers d l)
    (hslot : slot ≤ t.geometry.maxIndex) (hi : d.NextValid slot i) :
    ∃ l', (t.getNextEntry slot).locked l = .ok (d.content i) l' ∧ Answers d l' := by
  rcases h.getNextEntry hvalid hd hslot with ⟨j, l', hrun, hj, h'⟩ | ⟨l', -, hnone⟩
  · obtain rfl := hi.unique hj
    exact ⟨l', hrun, h'⟩
  · exact absurd hi (hnone i)

theorem Answers.getNextEntry_of_none (hvalid : t.geometry.Valid)
    (hd : (Device.fresh t.geometry).Evolves d) (h : Answers d l)
    (hslot : slot ≤ t.geometry.maxIndex)
    (hnone : ∀ i, d.isValid i = true → ¬SlotMap.Follows t.geometry slot i) :
    ∃ l', (t.getNextEntry slot).locked l = .error (.notFound slot) l' := by
  rcases h.getNextEntry hvalid hd hslot with ⟨i, l', -, hi, -⟩ | ⟨l', hrun, -⟩
  · exact absurd hi.follows (hnone i hi.valid)
  · exact ⟨l', hrun⟩

/-- Nothing is found exactly if no valid slot comes after the given one. -/
theorem Answers.result_eq_notFound_iff (hvalid : t.geometry.Valid)
    (hd : (Device.fresh t.geometry).Evolves d) (h : Answers d l)
    (hslot : slot ≤ t.geometry.maxIndex) :
    (t.getNextEntry slot).locked.result l = .error (.notFound slot) ↔
      ∀ i, d.isValid i = true → ¬SlotMap.Follows t.geometry slot i := by
  unfold Transaction.result
  constructor
  · intro hmiss i hi hfollows
    obtain ⟨j, hj⟩ := Device.exists_nextValid hi hfollows
    obtain ⟨l', hrun, -⟩ := h.getNextEntry_of_nextValid hvalid hd hslot hj
    rw [hrun] at hmiss
    exact nomatch hmiss
  · intro hnone
    obtain ⟨l', hrun⟩ := h.getNextEntry_of_none hvalid hd hslot hnone
    rw [hrun]

/-- Searches after a valid slot go through the valid slots above it, and then answer
what the search after the last of them answers. -/
theorem Answers.walk_append (hvalid : t.geometry.Valid)
    (hd : (Device.fresh t.geometry).Evolves d) (h : Answers d l) {before rest : List SlotIndex}
    (hsplit : d.validSlots = before ++ slot :: rest) (n : Nat) :
    ∃ l', Answers d l' ∧ t.walk (rest.length + n) slot l =
      rest.map (fun i => .ok (d.content i)) ++
        t.walk n ((slot :: rest).getLast (List.cons_ne_nil slot rest)) l' := by
  -- The induction is on the slots that are left.
  induction rest generalizing before slot l with
  | nil => exact ⟨l, h, by simp⟩
  | cons i rest ih =>
      have hslot : d.isValid slot = true := Device.mem_validSlots.mp (hsplit ▸ by simp)
      obtain ⟨l₁, hrun, h₁⟩ := h.getNextEntry_of_nextValid hvalid hd
        (Device.le_maxIndex_of_isValid hslot) (Device.nextValid_neighbour hsplit)
      have hsplit' : d.validSlots = (before ++ [slot]) ++ i :: rest := by
        rw [hsplit, List.append_assoc]
        rfl
      obtain ⟨l', h', hwalk⟩ := ih h₁ hsplit'
      refine ⟨l', h', ?_⟩
      rw [List.length_cons, Nat.add_right_comm, walk, hrun]
      simp only [Device.content] at hwalk ⊢
      rw [hwalk]
      rfl

/-- Searches from the largest index on go through all valid slots. -/
theorem Answers.walk_all (hvalid : t.geometry.Valid)
    (hd : (Device.fresh t.geometry).Evolves d) (h : Answers d l) {rest : List SlotIndex}
    (hslots : d.validSlots = i :: rest) (n : Nat) :
    ∃ l', Answers d l' ∧ t.walk ((i :: rest).length + n) t.geometry.maxIndex l =
      (i :: rest).map (fun k => .ok (d.content k)) ++
        t.walk n ((i :: rest).getLast (List.cons_ne_nil i rest)) l' := by
  obtain ⟨l₁, hrun, h₁⟩ := h.getNextEntry_of_nextValid hvalid hd (BitVec.le_refl _)
    (Device.nextValid_head hslots)
  have hsplit : d.validSlots = [] ++ i :: rest := hslots
  obtain ⟨l', h', hwalk⟩ := h₁.walk_append hvalid hd hsplit n
  refine ⟨l', h', ?_⟩
  rw [List.length_cons, Nat.add_right_comm, walk, hrun]
  simp only [Device.content] at hwalk ⊢
  rw [hwalk]
  rfl

theorem walk_one (cursor : SlotIndex) (l : Lock (Table.State (Device t.geometry))) :
    t.walk 1 cursor l = [(t.getNextEntry cursor).locked.result l] := by
  rw [walk, Transaction.result]
  cases (t.getNextEntry cursor).locked l with
  | ok found l' => rfl
  | error e l' => rfl

/-- After the last valid slot the walk starts over, if this is the last slot of the
table; otherwise nothing is found. -/
theorem Answers.result_last (hvalid : t.geometry.Valid)
    (hd : (Device.fresh t.geometry).Evolves d) (h : Answers d l) {rest : List SlotIndex}
    (hslots : d.validSlots = i :: rest) :
    (t.getNextEntry ((i :: rest).getLast (List.cons_ne_nil i rest))).locked.result l =
      if (i :: rest).getLast (List.cons_ne_nil i rest) = t.geometry.maxIndex then .ok (d.content i)
      else .error (.notFound ((i :: rest).getLast (List.cons_ne_nil i rest))) := by
  have hsplit : d.validSlots =
      (i :: rest).dropLast ++ [(i :: rest).getLast (List.cons_ne_nil i rest)] := by
    rw [List.dropLast_concat_getLast, hslots]
  unfold Transaction.result
  by_cases hlast : (i :: rest).getLast (List.cons_ne_nil i rest) = t.geometry.maxIndex
  · obtain ⟨l', hrun, -⟩ := h.getNextEntry_of_nextValid hvalid hd (BitVec.le_refl _)
      (Device.nextValid_head hslots)
    rw [if_pos hlast, hlast, hrun]
  · have hmem : d.isValid ((i :: rest).getLast (List.cons_ne_nil i rest)) = true := by
      rw [← Device.mem_validSlots, hslots]
      exact List.getLast_mem (List.cons_ne_nil i rest)
    obtain ⟨l', hrun⟩ := h.getNextEntry_of_none hvalid hd (Device.le_maxIndex_of_isValid hmem)
      fun k hk => Device.not_follows_last hsplit hlast hk
    rw [if_neg hlast, hrun]

end Ready

end Table

namespace Classifier

open Device (NextValid)

variable {c : Classifier} {l : Lock (Table.State (Device c.table.geometry))}

/-- A search answers the least valid slot after the given one, with the entry that a
read of that slot gives, and finds nothing exactly if no valid slot comes after it.  So
repeated searches from the largest index on give the valid slots in ascending order,
each once.  The search after the last of them finds nothing, unless it is the last slot
of the table, after which the walk starts over. -/
theorem getNextEntry_walks (hgeometry : c.table.geometry.validate = .ok ()) (hl : c.Reachable l)
    (hready : l.content.bus.Ready c.table.pollLimit) :
    let t := c.table
    let d := l.content.bus
    let last := t.geometry.maxIndex
    let slots := d.validSlots
    (∀ i, i ≤ last →
      (∀ k, d.NextValid i k →
        (t.getNextEntry i).locked.result l = .ok ⟨k, true, (d.content k).entry⟩ ∧
        (t.readEntry k).locked.result l = .ok ⟨k, true, (d.content k).entry⟩) ∧
      ((t.getNextEntry i).locked.result l = .error (.notFound i) ↔
        ∀ k, d.isValid k = true → ¬SlotMap.Follows t.geometry i k)) ∧
    (slots.Pairwise (· < ·) ∧ ∀ k, k ∈ slots ↔ d.isValid k = true) ∧
    t.walk slots.length last l = slots.map (fun k => .ok (d.content k)) ∧
    t.walk (slots.length + 1) last l = slots.map (fun k => .ok (d.content k)) ++
      [if slots.getLast? = some last then .ok (d.content (slots.headD last))
        else .error (.notFound (slots.getLastD last))] := by
  intro t d last slots
  have hvalid := Geometry.validate_eq_ok_iff.mp hgeometry
  obtain ⟨husable, hd⟩ := hl.evolves hvalid
  have h : Table.Answers d l := ⟨husable, hready, rfl⟩
  refine ⟨fun i hi => ⟨fun k hk => ?_, ?_⟩, ⟨d.pairwise_validSlots, fun _ => Device.mem_validSlots⟩,
    ?_⟩
  · have hcontent : d.content k = ⟨k, true, (d.content k).entry⟩ :=
      congrArg (fun b => (⟨k, b, (d.content k).entry⟩ : Slot)) ((d.valid_content k).trans hk.valid)
    obtain ⟨l', hrun, -⟩ := h.getNextEntry_of_nextValid hvalid hd hi hk
    refine ⟨?_, (h.result_readEntry hvalid (hd.checkSlot hk.valid)).trans (congrArg _ hcontent)⟩
    rw [← hcontent, Transaction.result, hrun]
  · exact h.result_eq_notFound_iff hvalid hd hi
  · cases hslots : slots with
    | nil =>
        have hnone : ∀ k, d.isValid k = true → ¬SlotMap.Follows t.geometry last k := by
          intro k hk
          have hmem : k ∈ slots := Device.mem_validSlots.mpr hk
          rw [hslots] at hmem
          exact nomatch hmem
        refine ⟨rfl, ?_⟩
        rw [List.length_nil, Table.walk_one,
          (h.result_eq_notFound_iff hvalid hd (BitVec.le_refl _)).mpr hnone]
        rfl
    | cons i rest =>
        obtain ⟨l₀, -, hall⟩ := h.walk_all hvalid hd hslots 0
        obtain ⟨l₁, h₁, hmore⟩ := h.walk_all hvalid hd hslots 1
        refine ⟨?_, ?_⟩
        · rw [Nat.add_zero, Table.walk, List.append_nil] at hall
          exact hall
        · rw [Table.walk_one, h₁.result_last hvalid hd hslots] at hmore
          rw [hmore, List.getLast?_eq_some_getLast (List.cons_ne_nil i rest)]
          simp only [Option.some.injEq]
          rfl

/-- The egress table with an inner slot and its last slot loaded. -/
def edgeSample : Lock (Table.State (Device egressSample.table.geometry)) :=
  egressSample.after (.table (.loadEntry 63#16 default))
    (egressSample.after (.table (.loadEntry 5#16 default))
      (.ofContent (.ofBus (.fresh egressSample.table.geometry))))

/-- The walk starts over after the last slot of the table. -/
theorem getNextEntry_walks_edgeSample :
    let d := edgeSample.content.bus
    egressSample.table.geometry.validate = .ok () ∧ egressSample.Reachable edgeSample ∧
      d.Ready egressSample.table.pollLimit ∧
      egressSample.table.walk 3 63#16 edgeSample =
        [.ok (d.content 5#16), .ok (d.content 63#16), .ok (d.content 5#16)] := by
  intro d
  have hreachable : egressSample.Reachable edgeSample :=
    .call _ (.table (.loadEntry 63#16 default)) (.call _ (.table (.loadEntry 5#16 default)) .fresh)
  have hready : d.Ready egressSample.table.pollLimit :=
    ⟨by decide +kernel, by decide +kernel, by decide +kernel, by decide +kernel⟩
  have hslots : d.validSlots = [5#16, 63#16] := by
    decide +kernel
  have hwalk := (getNextEntry_walks rfl hreachable hready).2.2.2
  refine ⟨rfl, hreachable, hready, ?_⟩
  rw [hslots] at hwalk
  exact hwalk

end Classifier

end Tcam

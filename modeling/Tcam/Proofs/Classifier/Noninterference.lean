import Tcam.Proofs.Classifier.Composition
import Tcam.Proofs.Classifier.Interruption
import Tcam.Proofs.Classifier.Refinement
import Tcam.Proofs.Table.Accesses
import Tcam.Proofs.Table.Noninterference

/-!
# Registers never leak

What the registers hold when an operation begins makes no difference to it: every
command finds in the registers what the same operation has put there.  One operation
keeps two tables alike whose devices differ in their registers, and gives the same
answer for both; runs of operations follow by induction.
-/

namespace Tcam

section Runs

variable {σ ρ α : Type} (serve : ρ → Transaction σ α)

theorem replies_cons (r : ρ) (rest : List ρ) (l : Lock (Table.State σ)) :
    replies serve (r :: rest) l =
      (serve r).result l :: replies serve rest ((serve r).after l) := by
  unfold Transaction.result Transaction.after
  rw [replies]
  cases serve r l <;> rfl

theorem afterAll_cons (r : ρ) (rest : List ρ) (l : Lock (Table.State σ)) :
    afterAll serve (r :: rest) l = afterAll serve rest ((serve r).after l) := by
  unfold Transaction.after
  rw [afterAll]
  cases serve r l <;> rfl

end Runs

namespace Classifier

variable {c : Classifier} {l₁ l₂ : Lock (Table.State (Device c.table.geometry))}

/-- The tables can be told apart by their registers only. -/
structure Alike (c : Classifier) (l₁ l₂ : Lock (Table.State (Device c.table.geometry))) :
    Prop where
  poisoned : l₁.poisoned = l₂.poisoned
  device : l₁.content.bus.Alike l₂.content.bus

theorem Alike.carryOut (halike : c.Alike l₁ l₂) (hvalid : c.table.geometry.Valid)
    (op : Operation) :
    (c.carryOut op).result l₁ = (c.carryOut op).result l₂ ∧
      c.Alike ((c.carryOut op).after l₁) ((c.carryOut op).after l₂) := by
  obtain ⟨s₁, poisoned⟩ := l₁
  obtain ⟨s₂, poisoned'⟩ := l₂
  obtain ⟨rfl, hdevice⟩ : poisoned = poisoned' ∧ s₁.bus.Alike s₂.bus := ⟨halike.1, halike.2⟩
  obtain ⟨m, hm, hop⟩ := exists_session c op poisoned
  have h₁ := hop s₁
  have h₂ := hop s₂
  unfold Transaction.result Transaction.after
  rw [h₁, h₂]
  rcases (Table.pair_of_basic hvalid hm hdevice).cases with
    ⟨a, s₁', s₂', hrun₁, hrun₂, hdevice', -⟩ | ⟨e, s₁', s₂', hrun₁, hrun₂, hdevice'⟩
  · rw [hrun₁, hrun₂]
    exact ⟨rfl, rfl, hdevice'⟩
  · rw [hrun₁, hrun₂]
    exact ⟨rfl, rfl, hdevice'⟩

theorem Alike.run (halike : c.Alike l₁ l₂) (hvalid : c.table.geometry.Valid)
    (ops : List Operation) :
    replies c.carryOut ops l₁ = replies c.carryOut ops l₂ ∧
      c.Alike (afterAll c.carryOut ops l₁) (afterAll c.carryOut ops l₂) := by
  induction ops generalizing l₁ l₂ with
  | nil => exact ⟨rfl, halike⟩
  | cons op ops ih =>
      obtain ⟨hresult, hafter⟩ := halike.carryOut hvalid op
      obtain ⟨hrest, hend⟩ := ih hafter
      rw [replies_cons, replies_cons, afterAll_cons, afterAll_cons, hresult, hrest]
      exact ⟨rfl, hend⟩

/-- An operation leaves the device as accesses leave it. -/
theorem reaches_after (c : Classifier) (op : Operation)
    (l : Lock (Table.State (Device c.table.geometry))) :
    l.content.bus.Reaches ((c.carryOut op).after l).content.bus := by
  obtain ⟨m, hm, hop⟩ := exists_session c op l.poisoned
  have hafter := after_of_eq_mapState (hop l.content)
  have hreaches := Table.reaches_of_steps (Table.composed_of_basic hm) l.content
  exact congrArg (fun l => l.content.bus) hafter ▸ hreaches

/-- If two tables differ in their data registers, their extension register and their
operation register only, every run of operations gives the same answers on both and
leaves the same slots.  No operation changes the bits of the extension register above
the sub-block. -/
theorem registers_never_leak (hvalid : c.table.geometry.validate = .ok ())
    (halike : c.Alike l₁ l₂) (ops : List Operation) :
    replies c.carryOut ops l₁ = replies c.carryOut ops l₂ ∧
      (afterAll c.carryOut ops l₁).content.bus.slots =
        (afterAll c.carryOut ops l₂).content.bus.slots ∧
      ∀ op (l : Lock (Table.State (Device c.table.geometry))),
        ((c.carryOut op).after l).content.bus.extension.extractLsb 15 4 =
          l.content.bus.extension.extractLsb 15 4 := by
  obtain ⟨hreplies, hend⟩ := halike.run (Geometry.validate_eq_ok_iff.mp hvalid) ops
  exact ⟨hreplies, hend.device.slots, fun op l => (reaches_after c op l).extension⟩

/-- A flushed table whose registers are full of leftovers. -/
def leftoverSample : Device ingressSample.table.geometry :=
  { Device.fresh ingressSample.table.geometry with
    operation := 0x7fff#16
    extension := 0xabcf#16
    data := BitVec.allOnes _
    accesses := 7 }

/-- A rule is configured over leftovers and read back, and the load of another one in
its place breaks off. -/
theorem registers_never_leak_leftoverSample :
    let l₁ := Lock.ofContent (Table.State.ofBus
      ((Device.fresh ingressSample.table.geometry).failNthAccess 200))
    let l₂ := Lock.ofContent (Table.State.ofBus (leftoverSample.failNthAccess 200))
    let ops : List Operation := [.rule (.configure 3#16 4#16 datagramSample), .readRule 3#16,
      .rule (.configure 3#16 4#16 segmentSample)]
    ingressSample.table.geometry.validate = .ok () ∧ ingressSample.Alike l₁ l₂ ∧
      replies ingressSample.carryOut ops l₁ = replies ingressSample.carryOut ops l₂ ∧
      (afterAll ingressSample.carryOut ops l₂).content.bus.isValid 3#16 = true ∧
      ((ingressSample.carryOut (.readRule 3#16)).after l₂).content.bus.extension.extractLsb 15 4 =
        0xabc#12 := by
  intro l₁ l₂ ops
  have halike : ingressSample.Alike l₁ l₂ := by
    refine ⟨rfl, rfl, rfl, rfl, rfl, fun n _ => ?_⟩
    change some (0 + 200) = some (0 + n) ↔ some (7 + 200) = some (7 + n)
    rw [Option.some.injEq, Option.some.injEq]
    omega
  obtain ⟨hreplies, -, hextension⟩ := registers_never_leak rfl halike ops
  have hleftover : (0xabcf#16).extractLsb 15 4 = 0xabc#12 := by
    decide
  exact ⟨rfl, halike, hreplies, by decide +kernel, (hextension _ l₂).trans hleftover⟩

end Classifier

end Tcam

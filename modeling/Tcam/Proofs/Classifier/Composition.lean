import Tcam.Proofs.Classifier.Request
import Tcam.Proofs.Table.Composition

/-!
# The operations of a classifier

All operations on a table and its rules as data, over any bus.  Each of them
either refuses an argument before it takes the lock, or runs one session with
the table locked (`carryOut_eq`), and that session is composed of the basic
operations of the table (`carryOut_cases`).
-/

namespace Tcam

/-- A call of an operation on a table or on its rules. -/
inductive Operation where
  | table (r : Request)
  | transaction (requests : List Request)
  | rule (r : RuleRequest)
  | readRule (slot : SlotIndex)

/-- What such a call returns. -/
inductive Answer where
  | table (reply : Reply)
  | transaction (replies : List Reply)
  | rule (reply : RuleReply)
  | readRule (rule : Option Rule)
  deriving DecidableEq, Repr

namespace Classifier

variable {c : Classifier} {t : Table}

/-- Carries out an operation. -/
def carryOut {σ : Type} [RegisterBus σ] (c : Classifier) : Operation → Transaction σ Answer
  | .table r => do return .table (← c.table.serve r)
  | .transaction requests => do
    return .transaction (← (requests.mapM (Request.session c.table)).locked)
  | .rule r => do return .rule (← c.serve r)
  | .readRule slot => do return .readRule (← c.readRule slot)

/-! ## Sessions -/

theorem basic_load (slot : SlotIndex) (p : Placement) :
    Composed t.Basic fun _ => load t slot p := by
  simp only [load_eq, loadSecond]
  refine .bind ?_ fun _ => .part (.loadEntry slot p.primary)
  cases p.continuation with
  | none => exact .pure ()
  | some q => exact .part (.loadEntry q.1 q.2)

theorem basic_flushEntries (slot : SlotIndex) :
    Composed t.Basic fun _ => flushEntries t slot := by
  refine .bind (Table.basic_findEntry slot) fun first => ?_
  refine .bind (.part (.flushEntry slot)) fun _ => ?_
  cases first.entry.next? with
  | none => exact .pure ()
  | some next => exact .part (.flushEntry next)

theorem basic_lookup (slot : SlotIndex) : Composed t.Basic fun _ => lookup? t slot :=
  .catchMiss (.bind (Table.basic_findEntry slot) fun found => .pure (some found)) (.pure none)

theorem basic_readContinuation (first : Entry) :
    Composed t.Basic fun _ => readContinuation t first := by
  unfold readContinuation
  cases first.next? with
  | none => exact .pure none
  | some next =>
      refine .bind (.part (.readEntry next)) fun second => ?_
      exact .ite (.pure (some second.entry)) (.part (.throw (.notFound next) rfl))

/-- Reads the slots of a rule. -/
def fetchRule {σ : Type} [RegisterBus σ] (t : Table) (slot : SlotIndex) :
    Session σ (Option Rule) := do
  match ← lookup? t slot with
  | none => return none
  | some first =>
    let second ← readContinuation t first.entry
    let rule ← ofExcept (Rule.ofEntries first.entry second)
    return some rule

theorem basic_fetchRule (slot : SlotIndex) : Composed t.Basic fun _ => fetchRule t slot := by
  refine .bind (basic_lookup slot) fun found => ?_
  cases found with
  | none => exact .pure none
  | some first =>
      refine .bind (basic_readContinuation first.entry) fun second => ?_
      refine .check (fun _ h => Table.basic_of_isRefusal (Rule.isRefusal_of_ofEntries h)) ?_
      exact fun rule => .pure (some rule)

/-! ## Operations -/

theorem locked_map {σ α β : Type} (op : Session σ α) (f : α → β) :
    (do return f (← op.locked) : Transaction σ β) = (do return f (← op) : Session σ β).locked := by
  funext l
  change EStateM.bind op.locked (fun a => pure (f a)) l =
    Session.locked (EStateM.bind op fun a => pure (f a)) l
  unfold EStateM.bind Session.locked Lock.hold
  cases l.poisoned with
  | true => rfl
  | false =>
      cases hop : op l.content with
      | ok a s => simp only [hop]; rfl
      | error e s => simp only [hop]; rfl

/-- The operation refuses an argument without looking at the table. -/
def Refused (c : Classifier) (op : Operation) (e : Error) : Prop :=
  ∀ {σ : Type} [RegisterBus σ] (l : Lock (Table.State σ)), c.carryOut op l = .error e l

/-- The operation runs a session with the table locked. -/
def Runs (c : Classifier) (op : Operation) (m : Script Answer) : Prop :=
  ∀ {σ : Type} [RegisterBus σ], c.carryOut op = (m σ).locked

/-- The session that the operation runs with the table locked, if its arguments pass
the checks that come before. -/
def script (c : Classifier) : Operation → Except Error (Script Answer)
  | .table r => .ok fun _ => do return Answer.table (← r.session c.table)
  | .transaction requests => .ok fun _ => do
    return Answer.transaction (← requests.mapM (Request.session c.table))
  | .rule (.configure slot1 slot2 rule) => (c.plan slot1 slot2 rule).map fun p _ => do
    load c.table slot1 p
    return .rule (.configured p.isCascaded)
  | .rule (.removeRule slot) => .ok fun _ => do
    flushEntries c.table slot
    return .rule .done
  | .rule (.addPort slot port) => (c.config.checkPort port).map fun _ _ => do
    c.table.updatePorts slot port (admitting port)
    return .rule .done
  | .rule (.removePort slot port) => (c.config.checkPort port).map fun _ _ => do
    c.table.updatePorts slot port (blocking port)
    return .rule .done
  | .rule .flushAll => .ok fun _ => do
    c.table.flushAll
    return .rule .done
  | .readRule slot => .ok fun _ => do
    return Answer.readRule (← fetchRule c.table slot)

/-- An operation checks arguments, and then runs its session with the table locked. -/
theorem carryOut_eq {σ : Type} [RegisterBus σ] (op : Operation) :
    (c.carryOut op : Transaction σ Answer) = match c.script op with
      | .ok m => (m σ).locked
      | .error e => throw e := by
  -- The checks and the session of an operation on rules, and what it answers.
  have hchecked {α β : Type} (x : Except Error α) (m : α → Script β) (answer : α → β → Answer) :
      (ofExcept x >>= fun a => (do return answer a (← (m a σ).locked) : Transaction σ Answer)) =
        match (x.map fun a _ _ => do return answer a (← m a _) : Except Error (Script Answer)) with
        | .ok m => (m σ).locked
        | .error e => throw e := by
    cases x with
    | ok a => exact locked_map (m a σ) (answer a)
    | error e => rfl
  cases op with
  | table r => exact locked_map (r.session c.table) Answer.table
  | transaction requests =>
      exact locked_map (requests.mapM (Request.session c.table)) Answer.transaction
  | rule r =>
      cases r with
      | configure slot1 slot2 rule =>
          refine Eq.trans ?_ (hchecked (c.plan slot1 slot2 rule)
            (fun p _ _ => load c.table slot1 p) fun p _ => .rule (.configured p.isCascaded))
          simp only [carryOut, serve, configure, bind_assoc, pure_bind]
      | removeRule slot =>
          refine Eq.trans ?_ (locked_map (flushEntries c.table slot) fun _ => Answer.rule .done)
          simp only [carryOut, serve, removeRule_eq, bind_assoc, pure_bind]
      | addPort slot port =>
          refine Eq.trans ?_ (hchecked (c.config.checkPort port)
            (fun _ _ _ => c.table.updatePorts slot port (admitting port)) fun _ _ => .rule .done)
          simp only [carryOut, serve_addPort, changePorts, bind_assoc, pure_bind]
      | removePort slot port =>
          refine Eq.trans ?_ (hchecked (c.config.checkPort port)
            (fun _ _ _ => c.table.updatePorts slot port (blocking port)) fun _ _ => .rule .done)
          simp only [carryOut, serve_removePort, changePorts, bind_assoc, pure_bind]
      | flushAll =>
          refine Eq.trans ?_ (locked_map c.table.flushAll fun _ => Answer.rule .done)
          simp only [carryOut, serve, bind_assoc, pure_bind]
  | readRule slot => exact locked_map (fetchRule c.table slot) Answer.readRule

theorem isRefusal_of_script {op : Operation} {e : Error} (h : c.script op = .error e) :
    e.IsRefusal := by
  cases op with
  | table r => exact nomatch h
  | transaction requests => exact nomatch h
  | rule r =>
      cases r with
      | configure slot1 slot2 rule => exact isRefusal_of_plan (Checks.map_eq_error_iff.mp h)
      | removeRule slot => exact nomatch h
      | addPort slot port => exact isRefusal_of_checkPort (Checks.map_eq_error_iff.mp h)
      | removePort slot port => exact isRefusal_of_checkPort (Checks.map_eq_error_iff.mp h)
      | flushAll => exact nomatch h
  | readRule slot => exact nomatch h

theorem basic_script {op : Operation} {m : Script Answer} (h : c.script op = .ok m) :
    Composed c.table.Basic m := by
  cases op with
  | table r =>
      obtain rfl := Except.ok.inj h
      exact (Table.basic_request r).map Answer.table
  | transaction requests =>
      obtain rfl := Except.ok.inj h
      exact (Composed.mapM Table.basic_request requests).map Answer.transaction
  | rule r =>
      cases r with
      | configure slot1 slot2 rule =>
          obtain ⟨p, -, rfl⟩ := Checks.map_eq_ok_iff.mp h
          exact (basic_load slot1 p).map fun _ => Answer.rule (.configured p.isCascaded)
      | removeRule slot =>
          obtain rfl := Except.ok.inj h
          exact (basic_flushEntries slot).map fun _ => Answer.rule .done
      | addPort slot port =>
          obtain ⟨_, -, rfl⟩ := Checks.map_eq_ok_iff.mp h
          exact (Table.basic_updatePorts slot port _).map fun _ => Answer.rule .done
      | removePort slot port =>
          obtain ⟨_, -, rfl⟩ := Checks.map_eq_ok_iff.mp h
          exact (Table.basic_updatePorts slot port _).map fun _ => Answer.rule .done
      | flushAll =>
          obtain rfl := Except.ok.inj h
          exact .map (fun _ => Answer.rule .done) (.part .flushAll)
  | readRule slot =>
      obtain rfl := Except.ok.inj h
      exact (basic_fetchRule slot).map Answer.readRule

/-- Every operation refuses an argument, or runs one session of basic operations. -/
theorem carryOut_cases (c : Classifier) (op : Operation) :
    (∃ e, e.IsRefusal ∧ c.Refused op e) ∨ ∃ m, Composed c.table.Basic m ∧ c.Runs op m := by
  cases h : c.script op with
  | ok m =>
      refine Or.inr ⟨m, basic_script h, ?_⟩
      intro σ _
      rw [carryOut_eq, h]
  | error e =>
      refine Or.inl ⟨e, isRefusal_of_script h, fun l => ?_⟩
      rw [carryOut_eq, h]
      rfl

/-- What a session with the table locked answers and leaves. -/
theorem locked_eq {σ α : Type} (op : Session σ α) {l : Lock (Table.State σ)}
    (hl : l.poisoned = false) :
    op.locked l = mapState (fun s => { l with content := s }) (op.settled l.content) := by
  change Lock.hold .lockPoisoned op.settled l = _
  unfold Lock.hold
  rw [hl]
  cases op.settled l.content <;> rfl

theorem locked_of_poisoned {σ α : Type} (op : Session σ α) {l : Lock (Table.State σ)}
    (hl : l.poisoned = true) : op.locked l = .error .lockPoisoned l := by
  unfold Session.locked Lock.hold
  rw [hl]
  rfl

/-- With the lock as it is, an operation is one session of basic operations. -/
theorem exists_session (c : Classifier) (op : Operation) (poisoned : Bool) :
    ∃ m : Script Answer, Composed c.table.Basic m ∧
      ∀ {σ : Type} [RegisterBus σ] (s : Table.State σ),
        c.carryOut op ⟨s, poisoned⟩ = mapState (fun s' => ⟨s', poisoned⟩) (m σ s) := by
  rcases carryOut_cases c op with ⟨e, he, hrefused⟩ | ⟨m, hm, hruns⟩
  · exact ⟨fun _ => throw e, .part (.throw e he.not_retryable), fun s => hrefused ⟨s, poisoned⟩⟩
  cases poisoned with
  | true =>
      refine ⟨fun _ => throw .lockPoisoned, .part (.throw _ rfl), fun {σ} _ s => ?_⟩
      rw [hruns]
      rfl
  | false =>
      refine ⟨fun σ => (m σ).settled, .settled hm, fun {σ} _ s => ?_⟩
      rw [hruns, locked_eq _ rfl]

/-- With the lock poisoned every operation fails and changes nothing. -/
theorem after_of_poisoned (c : Classifier) (op : Operation) {σ : Type} [RegisterBus σ]
    {l : Lock (Table.State σ)} (hl : l.poisoned = true) : (c.carryOut op).after l = l := by
  unfold Transaction.after
  rcases carryOut_cases c op with ⟨e, -, hrefused⟩ | ⟨m, -, hruns⟩
  · rw [hrefused]
  · rw [hruns, locked_of_poisoned _ hl]

theorem after_of_eq_mapState {σ σ' α : Type} {m : Transaction σ α} {l : Lock (Table.State σ)}
    {f : σ' → Lock (Table.State σ)} {r : EStateM.Result Error σ' α} (h : m l = mapState f r) :
    m.after l = f (endState r) := by
  unfold Transaction.after
  rw [h]
  cases r <;> rfl

theorem result_of_eq_mapState {σ σ' α : Type} {m : Transaction σ α} {l l' : Lock (Table.State σ)}
    {f f' : σ' → Lock (Table.State σ)} {r : EStateM.Result Error σ' α} (h : m l = mapState f r)
    (h' : m l' = mapState f' r) : m.result l = m.result l' := by
  unfold Transaction.result
  rw [h, h']
  cases r <;> rfl

theorem result_of_eq_error {σ α : Type} {m : Transaction σ α} {l l' : Lock (Table.State σ)}
    {e : Error} (h : m l = .error e l') : m.result l = .error e := by
  unfold Transaction.result
  rw [h]

variable {l : Lock (Table.State (Device c.table.geometry))}

/-- An operation ends as its checks or its session end. -/
theorem carryOut_ends {op : Operation} {Q : Answer → Table.State (Device c.table.geometry) → Prop}
    {E : Error → Table.State (Device c.table.geometry) → Prop} (hl : l.poisoned = false)
    (herror : ∀ e, c.script op = .error e → E e l.content)
    (hok : ∀ m, c.script op = .ok m → Session.Ends c.table.pollLimit (m _) l.content
      (fun a s' => Q a { s' with phase := .idle }) (fun e s' => E e { s' with phase := .idle })) :
    Transaction.Ends c.table.pollLimit (c.carryOut op) l Q E := by
  rw [carryOut_eq]
  cases h : c.script op with
  | ok m => exact .locked hl (hok m h)
  | error e =>
      exact ⟨hl, fun hready => ⟨hready, (isRefusal_of_script h).not_retryable⟩, herror e h⟩

/-- What sessions of basic operations do to the device, every operation does. -/
theorem carryOut_within {R : Device c.table.geometry → Device c.table.geometry → Prop}
    (hrefl : ∀ d, R d d)
    (hwithin : ∀ m : Script Answer, Composed c.table.Basic m → c.table.Within R (m _))
    (hl : l.poisoned = false) (op : Operation) :
    Transaction.Ends c.table.pollLimit (c.carryOut op) l
      (fun _ s' => R l.content.bus s'.bus) (fun _ s' => R l.content.bus s'.bus) :=
  carryOut_ends hl (fun _ _ => hrefl l.content.bus) fun m h => hwithin m (basic_script h) l.content

end Classifier

end Tcam

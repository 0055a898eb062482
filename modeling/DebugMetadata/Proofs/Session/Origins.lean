import DebugMetadata.Proofs.Session.Commands

/-!
# Where things come from

A recorder, a cursor or an instruction that a session has after a command was
there before, or the command made it.  Each of them is said here once for all
commands, so that an invariant of all recorders, cursors or instructions is a case
analysis of where they come from.
-/

namespace DebugMetadata.Session

variable {s s' : Session} {n : Nat} {answer : Answer} {command : Command} {slot : RecorderSlot}
  {c : Cursor} {id : InstrId} {i : Instruction}

/-! ## Recorders -/

/-- Where the recorder of a number comes from when a command has led from a session
to another. -/
inductive RecorderOrigin (s s' : Session) (n : Nat) : Command → RecorderSlot → Prop where
  | kept {command : Command} {slot : RecorderSlot} (hslot : s.recorders[n]? = some slot) :
    s.RecorderOrigin s' n command slot
  | created (choice : RecorderChoice) (settings : Settings) (path : List UInt8) {r : Recorder}
      {event : Option Event} (hn : n = s.recorders.size)
      (hcreate : Recorder.create (choice.schema settings) settings s.workingDirectory path
        s.module = .ok (r, s'.module, event)) :
    s.RecorderOrigin s' n (.createRecorder choice settings path) ⟨choice, r⟩
  | cloned {k : Nat} {slot : RecorderSlot} (hn : n = s.recorders.size)
      (hslot : s.recorders[k]? = some slot) :
    s.RecorderOrigin s' n (.recorder k .clone) slot
  | registered {slot : RecorderSlot} {r : Recorder} {event : Option Event}
      (function : FunctionId) (name : String) (line : Nat) (hslot : s.recorders[n]? = some slot)
      (hmark : slot.recorder.markSubprogram s.module function name line =
        .ok (r, s'.module, event)) :
    s.RecorderOrigin s' n (.recorder n (.markSubprogram function name line))
      { slot with recorder := r }
  | marked {slot : RecorderSlot} {r : Recorder} {c c' : Cursor} {event : Option Event}
      (k line : Nat) (hslot : s.recorders[n]? = some slot) (hc : s.cursors[k]? = some c)
      (hmark : slot.recorder.markLocation s.module c line = .ok (r, c', s'.module, event)) :
    s.RecorderOrigin s' n (.recorder n (.markLocation k line)) { slot with recorder := r }
  | added {slot : RecorderSlot} {r : Recorder} {id : NodeId} (name linkageName : String)
      (line : Nat) (hslot : s.recorders[n]? = some slot)
      (hadd : slot.recorder.addSubprogram? name linkageName line s.module =
        some (id, r, s'.module)) :
    s.RecorderOrigin s' n (.recorder n (.addSubprogram name linkageName line))
      { slot with recorder := r }

private theorem getElem?_setRecorder_cases {k : Nat} {r : Recorder}
    (h : (s.setRecorder k r).recorders[n]? = some slot) :
    (n = k ∧ ∃ old, s.recorders[n]? = some old ∧ slot = { old with recorder := r }) ∨
      s.recorders[n]? = some slot := by
  by_cases hn : n = k
  · subst hn
    rw [setRecorder, Array.getElem?_modify, if_pos rfl] at h
    obtain ⟨old, hold, rfl⟩ := Option.map_eq_some_iff.mp h
    exact .inl ⟨rfl, old, hold, rfl⟩
  · rw [getElem?_setRecorder_of_ne hn] at h
    exact .inr h

private theorem getElem?_push_cases {α : Type} {xs : Array α} {x y : α}
    (h : (xs.push x)[n]? = some y) : (n = xs.size ∧ y = x) ∨ xs[n]? = some y := by
  rw [Array.getElem?_push] at h
  by_cases hn : n = xs.size
  · rw [if_pos hn] at h
    exact .inl ⟨hn, (Option.some.inj h).symm⟩
  · rw [if_neg hn] at h
    exact .inr h

theorem Performs.recorderOrigin (h : s.Performs command answer s')
    (hslot : s'.recorders[n]? = some slot) : s.RecorderOrigin s' n command slot := by
  cases h with
  | createRecorder choice settings path hcreate =>
      rcases getElem?_push_cases hslot with ⟨hn, rfl⟩ | hold
      · exact .created choice settings path hn hcreate
      · exact .kept hold
  | clone horiginal hexposed =>
      rcases getElem?_push_cases hslot with ⟨hn, rfl⟩ | hold
      · exact .cloned hn horiginal
      · exact .kept hold
  | markSubprogram function name line hold hmark =>
      rcases getElem?_setRecorder_cases hslot with ⟨rfl, old, hold', rfl⟩ | hkept
      · cases hold.symm.trans hold'
        exact .registered function name line hold hmark
      · exact .kept hkept
  | markLocation line hold hc hmark =>
      rcases getElem?_setRecorder_cases hslot with ⟨rfl, old, hold', rfl⟩ | hkept
      · cases hold.symm.trans hold'
        exact .marked _ line hold hc hmark
      · exact .kept hkept
  | addSubprogram name linkageName line hold hexposed hadd =>
      rcases getElem?_setRecorder_cases hslot with ⟨rfl, old, hold', rfl⟩ | hkept
      · cases hold.symm.trans hold'
        exact .added name linkageName line hold hadd
      · exact .kept hkept
  | _ => exact .kept hslot

/-- No command takes a recorder away. -/
theorem Performs.recorders_le (h : s.Performs command answer s') :
    s.recorders.size ≤ s'.recorders.size := by
  cases h with
  | createRecorder choice settings path hcreate => exact (Array.size_push _).symm ▸ Nat.le_succ _
  | clone horiginal hexposed => exact (Array.size_push _).symm ▸ Nat.le_succ _
  | markSubprogram function name line hslot hmark => exact Nat.le_of_eq (size_setRecorder _ _ _).symm
  | markLocation line hslot hc hmark => exact Nat.le_of_eq (size_setRecorder _ _ _).symm
  | addSubprogram name linkageName line hslot hexposed hadd => exact Nat.le_of_eq (size_setRecorder _ _ _).symm
  | _ => exact Nat.le_refl _

/-! ## Cursors -/

/-- Where the cursor of a number comes from. -/
inductive CursorOrigin (s s' : Session) (n : Nat) : Command → Cursor → Prop where
  | kept {command : Command} {c : Cursor} (hc : s.cursors[n]? = some c) :
    s.CursorOrigin s' n command c
  | opened (block : BlockId) (hn : n = s.cursors.size) :
    s.CursorOrigin s' n (.openCursor block) { block }
  | moved {c : Cursor} (block : BlockId) (hc : s.cursors[n]? = some c) :
    s.CursorOrigin s' n (.cursor n (.moveTo block)) (c.moveTo block)
  | located {c : Cursor} (location : Option NodeId) (hc : s.cursors[n]? = some c) :
    s.CursorOrigin s' n (.cursor n (.locate location)) (c.locate location)
  | marked {k : Nat} {slot : RecorderSlot} {r : Recorder} {c c' : Cursor} {event : Option Event}
      (line : Nat) (hslot : s.recorders[k]? = some slot) (hc : s.cursors[n]? = some c)
      (hmark : slot.recorder.markLocation s.module c line = .ok (r, c', s'.module, event)) :
    s.CursorOrigin s' n (.recorder k (.markLocation n line)) c'

private theorem getElem?_setCursor_cases {k : Nat} {c' : Cursor}
    (h : (s.setCursor k c').cursors[n]? = some c) :
    (n = k ∧ c = c') ∨ s.cursors[n]? = some c := by
  rw [setCursor, Array.getElem?_modify] at h
  by_cases hn : k = n
  · rw [if_pos hn] at h
    obtain ⟨old, -, rfl⟩ := Option.map_eq_some_iff.mp h
    exact .inl ⟨hn.symm, rfl⟩
  · rw [if_neg hn] at h
    exact .inr h

theorem Performs.cursorOrigin (h : s.Performs command answer s')
    (hc : s'.cursors[n]? = some c) : s.CursorOrigin s' n command c := by
  cases h with
  | openCursor block =>
      rcases getElem?_push_cases hc with ⟨hn, rfl⟩ | hold
      · exact .opened block hn
      · exact .kept hold
  | moveTo block hold =>
      rcases getElem?_setCursor_cases hc with ⟨rfl, rfl⟩ | hkept
      · exact .moved block hold
      · exact .kept hkept
  | locate location hold =>
      rcases getElem?_setCursor_cases hc with ⟨rfl, rfl⟩ | hkept
      · exact .located location hold
      · exact .kept hkept
  | markLocation line hslot hold hmark =>
      rcases getElem?_setCursor_cases hc with ⟨rfl, rfl⟩ | hkept
      · exact .marked line hslot hold hmark
      · exact .kept hkept
  | _ => exact .kept hc

/-! ## Instructions -/

/-- Where an instruction comes from. -/
inductive InstructionOrigin (s s' : Session) (id : InstrId) : Command → Instruction → Prop where
  | kept {command : Command} {i : Instruction} (hi : s.module.instruction? id = some i) :
    s.InstructionOrigin s' id command i
  | attached {i : Instruction} (key : String) (node : NodeId)
      (hi : s.module.instruction? id = some i) :
    s.InstructionOrigin s' id (.attachToInstruction id key node) (i.attach key node)
  | emitted {k : Nat} {c : Cursor} (operation : Operation) (hc : s.cursors[k]? = some c)
      (hblock : c.block.index < s.module.blocks.size) :
    s.InstructionOrigin s' id (.cursor k (.emit operation))
      { operation, block := c.block, location := c.location }
  | marker {n k : Nat} {slot : RecorderSlot} {t : TaggedRecorder} {c : Cursor} {scope : NodeId}
      (line : Nat) (hslot : s.recorders[n]? = some slot) (ht : slot.recorder = .tagged t)
      (hc : s.cursors[k]? = some c) (hblock : c.block.index < s.module.blocks.size)
      (hscope : t.active = some scope)
      (hgraph : s'.module.graph =
        (s.module.graph.addTuple (TaggedRecorder.locationOperands line scope)).2) :
    s.InstructionOrigin s' id (.recorder n (.markLocation k line))
      (TaggedRecorder.markerAt c line
        (s.module.graph.addTuple (TaggedRecorder.locationOperands line scope)).1)

/-- The mark of a line emits a marker or no instruction at all. -/
private theorem instruction?_markLocation_cases {r r' : Recorder} {m m' : Module} {c c' : Cursor}
    {line : Nat} {event : Option Event}
    (hmark : r.markLocation m c line = .ok (r', c', m', event))
    (hi : m'.instruction? id = some i) :
    m.instruction? id = some i ∨
      ∃ t scope, r = .tagged t ∧ t.active = some scope ∧ c.block.index < m.blocks.size ∧
        m'.graph = (m.graph.addTuple (TaggedRecorder.locationOperands line scope)).2 ∧
        i = TaggedRecorder.markerAt c line
          (m.graph.addTuple (TaggedRecorder.locationOperands line scope)).1 := by
  rcases Recorder.markLocation_cases hmark with
    ⟨-, -, -, rfl, -⟩ | ⟨t, scope, -, -, -, -, rfl, -⟩ | ⟨t, -, -, -, -, rfl, -⟩ |
    ⟨t, scope, ht, -, hscope, hblock, -, -, rfl, -⟩
  · exact .inl hi
  · exact .inl hi
  · exact .inl hi
  · rcases Module.instruction?_push_cases hi with ⟨-, rfl⟩ | hkept
    · exact .inr ⟨t, scope, ht, hscope, hblock, Module.graph_pushInstruction _ _, rfl⟩
    · exact .inl hkept

theorem Performs.instructionOrigin (h : s.Performs command answer s')
    (hi : s'.module.instruction? id = some i) : s.InstructionOrigin s' id command i := by
  cases h with
  | attachToInstruction key node hold =>
      rw [Module.instruction?_attachToInstruction] at hi
      split at hi
      next hid =>
        subst hid
        obtain ⟨old, hkept, rfl⟩ := Option.map_eq_some_iff.mp hi
        exact .attached key node hkept
      next => exact .kept hi
  | emit operation hc hblock =>
      rcases Module.instruction?_push_cases hi with ⟨-, rfl⟩ | hkept
      · exact .emitted operation hc hblock
      · exact .kept hkept
  | createRecorder choice settings path hcreate =>
      rw [report, Recorder.module_create hcreate] at hi
      exact .kept hi
  | markSubprogram function name line hslot hmark =>
      have hinstrs := Recorder.instructions_markSubprogram hmark
      refine .kept ?_
      rw [Module.instruction?, ← hinstrs]
      exact hi
  | markLocation line hslot hc hmark =>
      rcases instruction?_markLocation_cases hmark hi with
        hkept | ⟨t, scope, ht, hscope, hblock, hgraph, rfl⟩
      · exact .kept hkept
      · exact .marker line hslot ht hc hblock hscope hgraph
  | addSubprogram name linkageName line hslot hexposed hadd =>
      rw [Recorder.module_addSubprogram? hadd] at hi
      exact .kept hi
  | addLocation line hslot hexposed hadd =>
      rw [Recorder.module_addLocation? hadd] at hi
      exact .kept hi
  | finalize hslot =>
      rw [report, Recorder.module_finalize] at hi
      exact .kept hi
  | _ => exact .kept hi

/-! ## Lists -/

/-- Where the content of a growable list comes from. -/
inductive ListOrigin (s s' : Session) (list : ListId) : Command → Array NodeId → Prop where
  | kept {command : Command} {ids : Array NodeId} (hids : s.module.graph.list? list = some ids) :
    s.ListOrigin s' list command ids
  | edited {ids : Array NodeId} {answer : Answer} (edit : Graph.Edit)
      (hedit : s.module.graph.perform edit = .ok (answer, s'.module.graph)) :
    s.ListOrigin s' list (.edit edit) ids
  | created (choice : RecorderChoice) (settings : Settings) (path : List UInt8)
      (hlist : list.index = s.module.graph.lists.size) :
    s.ListOrigin s' list (.createRecorder choice settings path) #[]
  | registered {n : Nat} {slot : RecorderSlot} {t : TaggedRecorder} {f : Function}
      {ids : Array NodeId} (function : FunctionId) (name : String) (line : Nat)
      (hslot : s.recorders[n]? = some slot) (ht : slot.recorder = .tagged t)
      (hf : s.module.function? function = some f) (hlist : list = t.subprograms)
      (hids : s.module.graph.list? list = some ids)
      (hgraph : s'.module.graph = (t.addSubprogram name f.name line s.module).2.2.graph) :
    s.ListOrigin s' list (.recorder n (.markSubprogram function name line))
      (ids.push (t.addSubprogram name f.name line s.module).1)
  | added {n : Nat} {slot : RecorderSlot} {t : TaggedRecorder} {ids : Array NodeId}
      (name linkageName : String) (line : Nat) (hslot : s.recorders[n]? = some slot)
      (ht : slot.recorder = .tagged t) (hlist : list = t.subprograms)
      (hids : s.module.graph.list? list = some ids)
      (hgraph : s'.module.graph = (t.addSubprogram name linkageName line s.module).2.2.graph) :
    s.ListOrigin s' list (.recorder n (.addSubprogram name linkageName line))
      (ids.push (t.addSubprogram name linkageName line s.module).1)

private theorem list?_of_lists_eq {g g' : Graph} {list : ListId} {ids : Array NodeId}
    (h : g'.lists = g.lists) (hids : g'.list? list = some ids) : g.list? list = some ids := by
  rw [Graph.list?, ← h]
  exact hids

private theorem list?_modify_cases {g g' : Graph} {list other : ListId} {ids : Array NodeId}
    {node : NodeId} (h : g'.lists = g.lists.modify list.index (·.push node))
    (hids : g'.list? other = some ids) :
    (other = list ∧ ∃ old, g.list? other = some old ∧ ids = old.push node) ∨
      g.list? other = some ids := by
  obtain ⟨index⟩ := list
  obtain ⟨index'⟩ := other
  rw [Graph.list?, h, Array.getElem?_modify] at hids
  by_cases hindex : index = index'
  · rw [if_pos hindex] at hids
    obtain ⟨old, hold, rfl⟩ := Option.map_eq_some_iff.mp hids
    exact .inl ⟨congrArg ListId.mk hindex.symm, old, hold, rfl⟩
  · rw [if_neg hindex] at hids
    exact .inr hids

theorem Performs.listOrigin (h : s.Performs command answer s') {list : ListId}
    {ids : Array NodeId} (hids : s'.module.graph.list? list = some ids) :
    s.ListOrigin s' list command ids := by
  cases h with
  | edit edit hedit => exact .edited edit hedit
  | addFlag flag => exact .kept (list?_of_lists_eq (s.module.graph.lists_addFlag flag) hids)
  | @createRecorder choice settings path r m event hcreate =>
      change m.graph.list? list = some ids at hids
      rcases Recorder.create_cases hcreate with ⟨-, -, hm, -⟩ | ⟨source, -, -, -, hm, -⟩ |
        ⟨source, -, -, -, hm, -⟩
      · rw [hm] at hids
        exact .kept hids
      · rw [hm] at hids
        exact .kept (list?_of_lists_eq
          (TypedRecorder.lists_create settings source s.module.graph) hids)
      · rw [hm, Graph.list?] at hids
        dsimp only at hids
        rw [TaggedRecorder.lists_create] at hids
        rcases getElem?_push_cases hids with ⟨hlist, rfl⟩ | hold
        · exact .created choice settings path hlist
        · exact .kept hold
  | @markSubprogram n slot function name line r m event hslot hmark =>
      change m.graph.list? list = some ids at hids
      rcases Recorder.markSubprogram_cases hmark with ⟨-, -, hm, -⟩ | ⟨t, f, -, -, -, hm, -⟩ |
        ⟨t, f, ht, hf, -, hm, -⟩
      · rw [hm] at hids
        exact .kept hids
      · rw [hm] at hids
        exact .kept (list?_of_lists_eq (t.lists_addSubprogram name f.name line _) hids)
      · rw [hm] at hids
        rcases list?_modify_cases (t.lists_addSubprogram name f.name line _) hids with
          ⟨hlist, old, hold, rfl⟩ | hold
        · exact .registered function name line hslot ht hf hlist hold (congrArg Module.graph hm)
        · exact .kept hold
  | markLocation line hslot hc hmark =>
      rcases Recorder.markLocation_cases hmark with
        ⟨-, -, -, rfl, -⟩ | ⟨t, scope, -, -, -, -, rfl, -⟩ | ⟨t, -, -, -, -, rfl, -⟩ |
        ⟨t, scope, -, -, -, -, -, -, rfl, -⟩
      · exact .kept hids
      · exact .kept (list?_of_lists_eq (Graph.lists_addDebug _ _ _) hids)
      · exact .kept hids
      · exact .kept (list?_of_lists_eq (Graph.lists_addTuple _ _) hids)
  | @finalize n slot hslot =>
      change (slot.recorder.finalize s.module).1.graph.list? list = some ids at hids
      exact .kept (list?_of_lists_eq (Recorder.lists_finalize _ _) hids)
  | @addSubprogram n slot name linkageName line id r m hslot hexposed hadd =>
      change m.graph.list? list = some ids at hids
      rcases Recorder.addSubprogram?_cases hadd with ⟨t, -, -, -, hm⟩ | ⟨t, ht, -, -, hm⟩
      · rw [hm] at hids
        exact .kept (list?_of_lists_eq (t.lists_addSubprogram name linkageName line _) hids)
      · rw [hm] at hids
        rcases list?_modify_cases (t.lists_addSubprogram name linkageName line _) hids with
          ⟨hlist, old, hold, rfl⟩ | hold
        · exact .added name linkageName line hslot ht hlist hold (congrArg Module.graph hm)
        · exact .kept hold
  | addLocation line hslot hexposed hadd =>
      exact .kept (list?_of_lists_eq (Recorder.lists_addLocation? hadd) hids)
  | _ => exact .kept hids

/-! ## Functions and blocks -/

/-- A command declares a function, appends a block, or leaves the functions by name
and the blocks by function as they are. -/
theorem Performs.frame_cases (h : s.Performs command answer s') :
    (∃ name signature, command = .addFunction name signature ∧
      s.module.functionIndex.contains name = false ∧
      s'.module = s.module.pushFunction name signature) ∨
    (∃ function label, command = .appendBlock function label ∧
      s'.module = s.module.pushBlock function label) ∨
    s.module.SameFrame s'.module := by
  cases h with
  | addFunction name signature hfresh => exact .inl ⟨name, signature, rfl, hfresh, rfl⟩
  | appendBlock function label hlt => exact .inr (.inl ⟨function, label, rfl, rfl⟩)
  | attachToFunction key node hf =>
      exact .inr (.inr (Module.sameFrame_attachToFunction _ _ _ _))
  | emit operation hc hblock => exact .inr (.inr (Module.sameFrame_pushInstruction _ _))
  | createRecorder choice settings path hcreate =>
      refine .inr (.inr ?_)
      rw [report, Recorder.module_create hcreate]
      exact s.module.sameFrame_graph _
  | markSubprogram function name line hslot hmark =>
      exact .inr (.inr (Recorder.sameFrame_markSubprogram hmark))
  | markLocation line hslot hc hmark =>
      exact .inr (.inr (Recorder.sameFrame_markLocation hmark))
  | finalize hslot => exact .inr (.inr (Recorder.sameFrame_finalize _ _))
  | addSubprogram name linkageName line hslot hexposed hadd =>
      refine .inr (.inr ?_)
      rw [setRecorder, Recorder.module_addSubprogram? hadd]
      exact s.module.sameFrame_graph _
  | addLocation line hslot hexposed hadd =>
      refine .inr (.inr ?_)
      rw [Recorder.module_addLocation? hadd]
      exact s.module.sameFrame_graph _
  | _ => exact .inr (.inr ⟨rfl, rfl, rfl⟩)

theorem Performs.named (h : s.Performs command answer s') (hnamed : s.module.Named) :
    s'.module.Named := by
  rcases h.frame_cases with ⟨name, signature, -, hfresh, hm⟩ | ⟨function, label, -, hm⟩ | hframe
  · rw [hm]
    apply hnamed.pushFunction
    rw [← hnamed.contains_iff, hfresh]
    exact Bool.false_ne_true
  · rw [hm]
    exact hnamed.pushBlock function label
  · exact hnamed.of_sameFrame hframe

/-- A block keeps its function. -/
theorem Performs.owner (h : s.Performs command answer s') {block : BlockId}
    {function : FunctionId}
    (howner : (s.module.block? block).map (·.function) = some function) :
    (s'.module.block? block).map (·.function) = some function := by
  rw [← Module.getElem?_owners] at howner ⊢
  rcases h.frame_cases with ⟨name, signature, -, -, hm⟩ | ⟨other, label, -, hm⟩ | hframe
  · rw [hm]
    exact howner
  · obtain ⟨hlt, -⟩ := List.getElem?_eq_some_iff.mp howner
    rw [hm, Module.owners_pushBlock, List.getElem?_append_left hlt]
    exact howner
  · rw [hframe.owners]
    exact howner

/-- A function keeps its name. -/
theorem Performs.function_name (h : s.Performs command answer s') {function : FunctionId}
    {f : Function} (hf : s.module.function? function = some f) :
    ∃ f', s'.module.function? function = some f' ∧ f'.name = f.name := by
  have hname : s.module.names[function.index]? = some f.name := by
    rw [Module.getElem?_names, hf]
    rfl
  have hname' : s'.module.names[function.index]? = some f.name := by
    rcases h.frame_cases with ⟨name, signature, -, -, hm⟩ | ⟨other, label, -, hm⟩ | hframe
    · obtain ⟨hlt, -⟩ := List.getElem?_eq_some_iff.mp hname
      rw [hm, Module.names_pushFunction, List.getElem?_append_left hlt]
      exact hname
    · rw [hm, Module.names_pushBlock]
      exact hname
    · rw [hframe.names]
      exact hname
  rw [Module.getElem?_names] at hname'
  exact Option.map_eq_some_iff.mp hname'

/-- A function keeps its attachments, but for one that the command makes. -/
theorem Performs.attachments_cases (h : s.Performs command answer s') {function : FunctionId}
    {f : Function} (hf : s.module.function? function = some f) :
    ∃ f', s'.module.function? function = some f' ∧
      (f'.attachments = f.attachments ∨
      (∃ key node, command = .attachToFunction function key node ∧
        f'.attachments = f.attachments.insert key node) ∨
      (∃ n slot t name line, command = .recorder n (.markSubprogram function name line) ∧
        s.recorders[n]? = some slot ∧ slot.recorder = .typed t ∧
        f'.attachments = f.attachments.insert TypedRecorder.subprogramKey
          (t.addSubprogram name f.name line s.module.graph).1)) := by
  cases h with
  | addFunction name signature hfresh =>
      exact ⟨f, Module.function?_pushFunction_of_some hf, .inl rfl⟩
  | appendBlock other label hlt =>
      obtain ⟨f', hf', hsame, -⟩ := Module.function?_pushBlock_of_some hf other label
      exact ⟨f', hf', .inl hsame⟩
  | @attachToFunction other _ key node hother =>
      have hattach := s.module.function?_attachToFunction other function key node
      by_cases hid : function = other
      · subst hid
        rw [if_pos rfl, hf] at hattach
        exact ⟨_, hattach, .inr (.inl ⟨key, node, rfl, rfl⟩)⟩
      · rw [if_neg hid, hf] at hattach
        exact ⟨f, hattach, .inl rfl⟩
  | createRecorder choice settings path hcreate =>
      refine ⟨f, ?_, .inl rfl⟩
      rw [report, Recorder.module_create hcreate]
      exact hf
  | @markSubprogram n slot other name line r m event hslot hmark =>
      change ∃ f', m.function? function = some f' ∧ _
      rcases Recorder.markSubprogram_cases hmark with
        ⟨-, -, hm, -⟩ | ⟨t, g, ht, hg, -, hm, -⟩ | ⟨t, g, -, -, -, hm, -⟩
      · rw [hm]
        exact ⟨f, hf, .inl rfl⟩
      · rw [hm, Module.function?_attachToFunction]
        by_cases hid : function = other
        · subst hid
          cases hf.symm.trans hg
          rw [if_pos rfl]
          exact ⟨_, Option.map_eq_some_iff.mpr ⟨f, hf, rfl⟩,
            .inr (.inr ⟨n, slot, t, name, line, rfl, hslot, ht, rfl⟩)⟩
        · rw [if_neg hid]
          exact ⟨f, hf, .inl rfl⟩
      · rw [hm, TaggedRecorder.module_addSubprogram, Module.function?_graph]
        exact ⟨f, hf, .inl rfl⟩
  | markLocation line hslot hc hmark =>
      refine ⟨f, ?_, .inl rfl⟩
      rw [Module.function?, ← Recorder.functions_markLocation hmark] at hf
      exact hf
  | finalize hslot =>
      refine ⟨f, ?_, .inl rfl⟩
      rw [report, Recorder.module_finalize]
      exact hf
  | addSubprogram name linkageName line hslot hexposed hadd =>
      refine ⟨f, ?_, .inl rfl⟩
      rw [setRecorder, Recorder.module_addSubprogram? hadd]
      exact hf
  | addLocation line hslot hexposed hadd =>
      refine ⟨f, ?_, .inl rfl⟩
      rw [Recorder.module_addLocation? hadd]
      exact hf
  | _ => exact ⟨f, hf, .inl rfl⟩

/-- Where the attachments of a function come from when a command has led from a session to
another. -/
inductive AttachmentsOrigin (s : Session) (function : FunctionId) :
    Command → Attachments → Prop where
  | kept {command : Command} {f : Function} (hf : s.module.function? function = some f) :
    s.AttachmentsOrigin function command f.attachments
  | declared (name : String) (signature : Signature) :
    s.AttachmentsOrigin function (.addFunction name signature) ∅
  | attached {f : Function} (key : String) (node : NodeId)
      (hf : s.module.function? function = some f) :
    s.AttachmentsOrigin function (.attachToFunction function key node)
      (f.attachments.insert key node)
  | marked {slot : RecorderSlot} {t : TypedRecorder} {f : Function} (n : Nat) (name : String)
      (line : Nat) (hslot : s.recorders[n]? = some slot) (ht : slot.recorder = .typed t)
      (hf : s.module.function? function = some f) :
    s.AttachmentsOrigin function (.recorder n (.markSubprogram function name line))
      (f.attachments.insert TypedRecorder.subprogramKey
        (t.addSubprogram name f.name line s.module.graph).1)

theorem Performs.attachmentsOrigin (h : s.Performs command answer s') {function : FunctionId}
    {f' : Function} (hf' : s'.module.function? function = some f') :
    s.AttachmentsOrigin function command f'.attachments := by
  cases hf : s.module.function? function with
  | some f =>
      obtain ⟨f'', hf'', hcases⟩ := h.attachments_cases hf
      cases hf'.symm.trans hf''
      rcases hcases with hsame | ⟨key, node, rfl, hattach⟩ |
        ⟨n, slot, t, name, line, rfl, hslot, ht, hattach⟩
      · rw [hsame]
        exact .kept hf
      · rw [hattach]
        exact .attached key node hf
      · rw [hattach]
        exact .marked n name line hslot ht hf
  | none =>
      -- Only a declaration makes a name where there was none.
      have hname : s.module.names[function.index]? = none := by
        rw [Module.getElem?_names, hf]
        rfl
      have hname' : s'.module.names[function.index]? = some f'.name := by
        rw [Module.getElem?_names, hf']
        rfl
      rcases h.frame_cases with ⟨name, signature, rfl, -, hm⟩ | ⟨other, label, -, hm⟩ | hframe
      · rw [hm, Module.function?, Module.pushFunction, Array.getElem?_push] at hf'
        split at hf'
        · cases hf'
          exact .declared name signature
        · cases hf.symm.trans hf'
      · rw [hm, Module.names_pushBlock, hname] at hname'
        cases hname'
      · rw [hframe.names, hname] at hname'
        cases hname'

end DebugMetadata.Session

import DebugMetadata.Proofs.Session.Continuity

/-!
# The layout of tagged tuples

The operands of a tuple are told apart by their places alone, and a consumer drops what
it cannot place.  The layout is written out here operand by operand, apart from the
recorder that writes it, and what a tagged recorder adds for a function is in it.
-/

namespace DebugMetadata.TaggedRecorder

/-- The node is a subprogram of the recorder: the pair and its file, a name twice, the
name of a function, a line twice, a type, a tuple of variables and the function of the
name.  The type has an empty tuple of types. -/
def HasSubprogram (t : TaggedRecorder) (m : Module) (pair id : NodeId) : Prop :=
  ∃ (name : String) (line : Nat) (type types locals : NodeId) (function : FunctionId)
    (f : Function),
    m.graph.node? id = some (.tuple
      [.int 32 786478, .node pair, .node t.file, .str name, .str name, .str f.name,
        .int 32 line, .node type, .int 1 0, .int 1 1, .int 32 0, .int 32 0, .null, .int 32 0,
        .int 1 (if t.optimized then 1 else 0), .function function, .null, .null, .node locals,
        .int 32 line]) ∧
    m.graph.node? type = some (.tuple
      [.int 32 786453, .int 32 0, .null, .str "", .int 32 0, .int 64 0, .int 64 0, .int 64 0,
        .int 32 0, .null, .node types, .int 32 0, .null, .null, .null]) ∧
    m.graph.node? types = some (.tuple [.null]) ∧
    m.graph.node? locals = some (.tuple [.int 32 0]) ∧
    m.function? function = some f

variable {t t' : TaggedRecorder} {m : Module} {pair id : NodeId}

/-! ## Recorders over time -/

theorem LeadsTo.symm (h : t.LeadsTo t') : t'.LeadsTo t :=
  ⟨h.source.symm, h.optimized.symm, h.file.symm, h.unit.symm, h.subprograms.symm⟩

theorem LeadsTo.trans {t'' : TaggedRecorder} (h : t.LeadsTo t') (h' : t'.LeadsTo t'') :
    t.LeadsTo t'' :=
  ⟨h'.source.trans h.source, h'.optimized.trans h.optimized, h'.file.trans h.file,
    h'.unit.trans h.unit, h'.subprograms.trans h.subprograms⟩

theorem HasSubprogram.of_leadsTo (h : t.HasSubprogram m pair id) (hleads : t.LeadsTo t') :
    t'.HasSubprogram m pair id := by
  rw [HasSubprogram, hleads.file, hleads.optimized]
  exact h

theorem HasSubprogram.step {s s' : Session} {command : Command} {answer : Answer}
    (h : t.HasSubprogram s.module pair id) (hperform : s.Performs command answer s') :
    t.HasSubprogram s'.module pair id := by
  obtain ⟨name, line, type, types, locals, function, f, hid, htype, htypes, hlocals, hf⟩ := h
  obtain ⟨f', hf', hname⟩ := hperform.function_name hf
  have hextends := hperform.grows.nodes
  refine ⟨name, line, type, types, locals, function, f', ?_, hextends.node? htype,
    hextends.node? htypes, hextends.node? hlocals, hf'⟩
  rw [hname]
  exact hextends.node? hid

/-! ## What is added -/

/-- A subprogram that is added under the name of a function is in the layout. -/
theorem hasSubprogram_addSubprogram (hm : m.graph.Indexed) (hnamed : m.Named)
    (hfile : HasFile t.source m.graph t.file pair) {function : FunctionId} {f : Function}
    (hf : m.function? function = some f) (name : String) (line : Nat) :
    t.HasSubprogram (t.addSubprogram name f.name line m).2.2 pair
      (t.addSubprogram name f.name line m).1 := by
  obtain ⟨type, types, locals, hid, htype, htypes, hlocals⟩ :=
    hfile.nodes_addSubprogram hm name f.name line
  rw [hnamed.findFunction?_name hf] at hid
  refine ⟨name, line, type, types, locals, function, f, hid, htype, htypes, hlocals, ?_⟩
  rw [t.module_addSubprogram, Module.function?_graph]
  exact hf

/-- Who asks for the pair and the file again gets these nodes, and changes nothing. -/
theorem HasFile.addTuple_eq {source : SourceFile} {g : Graph} {file : NodeId}
    (h : HasFile source g file pair) (hg : g.Indexed) :
    g.addTuple [.str source.filename, .str source.directory] = (pair, g) ∧
      g.addTuple [.int 32 786473, .node pair] = (file, g) :=
  ⟨Graph.add_of_found ((hg.shared _ _).mpr ⟨h.1, rfl⟩),
    Graph.add_of_found ((hg.shared _ _).mpr ⟨h.2, rfl⟩)⟩

end DebugMetadata.TaggedRecorder

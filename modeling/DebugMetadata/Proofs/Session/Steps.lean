import DebugMetadata.Proofs.Graph.Named
import DebugMetadata.Proofs.Session.Runs
import Mathlib.Logic.Relation

/-!
# The steps of a module

Whatever a command does to the module of a session, it does in steps of seven kinds.  Six
of them touch one function, block or instruction or none, and the last one lets the
metadata graph grow.
-/

namespace DebugMetadata

/-- What is done to a module at once. -/
inductive Module.Step (m : Module) : Module → Prop where
  | filename (filename : String) : m.Step { m with sourceFilename := some filename }
  | function (name : String) (signature : Signature) : m.Step (m.pushFunction name signature)
  | block {function : FunctionId} (label : String) (h : function.index < m.functions.size) :
    m.Step (m.pushBlock function label)
  | instruction {i : Instruction} (h : i.block.index < m.blocks.size) :
    m.Step (m.pushInstruction i)
  | attachToFunction (function : FunctionId) (key : String) (node : NodeId) :
    m.Step (m.attachToFunction function key node)
  | attachToInstruction (instr : InstrId) (key : String) (node : NodeId) :
    m.Step (m.attachToInstruction instr key node)
  | graph {graph : Graph} (hgrows : m.graph.Grows graph) (hnamed : m.graph.KeepsNamed graph) :
    m.Step { m with graph }

/-- What is done to a module in any number of steps. -/
abbrev Module.Steps : Module → Module → Prop := Relation.ReflTransGen Module.Step

variable {m m' : Module}

theorem Module.Step.of_graph (h : m' = { m with graph := m'.graph })
    (hgrows : m.graph.Grows m'.graph) (hnamed : m.graph.KeepsNamed m'.graph) : m.Step m' := by
  rw [h]
  exact .graph hgrows hnamed

namespace Recorder

variable {r r' : Recorder} {c c' : Cursor} {line : Nat} {event : Option Event}

theorem steps_markSubprogram {function : FunctionId} {name : String}
    (h : r.markSubprogram m function name line = .ok (r', m', event)) : m.Steps m' := by
  rcases markSubprogram_cases h with
    ⟨-, -, hm', -⟩ | ⟨t, f, -, -, -, hm', -⟩ | ⟨t, f, -, -, -, hm', -⟩
  · rw [hm']
  · have hgraph : m.Step { m with graph := (t.addSubprogram name f.name line m.graph).2.2 } :=
      .graph (t.grows_addSubprogram name f.name line m.graph)
        (.of_named_eq (t.named_addSubprogram name f.name line m.graph))
    rw [hm']
    exact (Relation.ReflTransGen.single hgraph).tail (.attachToFunction _ _ _)
  · rw [hm']
    exact .single (.of_graph (t.module_addSubprogram name f.name line m)
      (t.grows_addSubprogram name f.name line m)
      (.of_named_eq (t.named_addSubprogram name f.name line m)))

theorem steps_markLocation (h : r.markLocation m c line = .ok (r', c', m', event)) :
    m.Steps m' := by
  have hgraph (node : Node) : m.Step { m with graph := (m.graph.add node).2 } :=
    .graph (m.graph.grows_add node) (m.graph.keepsNamed_add node)
  rcases markLocation_cases h with ⟨-, -, -, hm', -⟩ | ⟨t, scope, -, -, -, -, hm', -⟩ |
    ⟨t, -, -, -, -, hm', -⟩ | ⟨t, scope, -, -, -, hblock, -, -, hm', -⟩
  · rw [hm']
  · rw [hm', Graph.addDebug_eq_add]
    exact .single (hgraph _)
  · rw [hm']
  · rw [hm', Graph.addTuple_eq_add]
    exact (Relation.ReflTransGen.single (hgraph _)).tail (.instruction hblock)

end Recorder

namespace Session

variable {s s' : Session} {command : Command} {answer : Answer}

theorem Performs.steps (h : s.Performs command answer s') : s.module.Steps s'.module := by
  cases h with
  | setSourceFilename filename => exact .single (.filename filename)
  | addFunction name signature hfresh => exact .single (.function name signature)
  | appendBlock function label hlt => exact .single (.block label hlt)
  | edit edit hedit =>
      exact .single (.graph (Graph.grows_perform hedit) (Graph.keepsNamed_perform hedit))
  | attachToFunction key node hf => exact .single (.attachToFunction _ key node)
  | attachToInstruction key node hi => exact .single (.attachToInstruction _ key node)
  | addFlag flag =>
      exact .single (.graph (s.module.graph.grows_addFlag flag)
        (s.module.graph.keepsNamed_addFlag flag))
  | emit operation hc hblock => exact .single (.instruction hblock)
  | createRecorder choice settings path hcreate =>
      exact .single (.of_graph (Recorder.module_create hcreate) (Recorder.grows_create hcreate)
        (.of_named_eq (Recorder.named_create hcreate)))
  | markSubprogram function name line hslot hmark => exact Recorder.steps_markSubprogram hmark
  | markLocation line hslot hc hmark => exact Recorder.steps_markLocation hmark
  | finalize hslot =>
      exact .single (.of_graph (Recorder.module_finalize _ _) (Recorder.grows_finalize _ _)
        (Recorder.keepsNamed_finalize _ _))
  | addSubprogram name linkageName line hslot hexposed hadd =>
      exact .single (.of_graph (Recorder.module_addSubprogram? hadd)
        (Recorder.grows_addSubprogram? hadd) (.of_named_eq (Recorder.named_addSubprogram? hadd)))
  | addLocation line hslot hexposed hadd =>
      exact .single (.of_graph (Recorder.module_addLocation? hadd)
        (Recorder.grows_addLocation? hadd) (.of_named_eq (Recorder.named_addLocation? hadd)))
  | openCursor | moveTo | locate | clone => exact .refl

/-- A run leads from module to module in steps. -/
theorem steps_run (s : Session) (commands : List Command) :
    s.module.Steps (s.run commands).2.module :=
  run_keeps (fun s' => s.module.Steps s'.module)
    (fun hsteps hperform => hsteps.trans hperform.steps) .refl commands

end Session

end DebugMetadata

import DebugMetadata.Proofs.Session.Origins
import DebugMetadata.Proofs.Session.Runs

/-!
# What recorders are rooted in

A recorder creates the nodes of its file and of its compile unit before it is told
anything, and a tagged one the list that its unit refers to.  They stay in the graph
as they are, whatever is recorded later and by whichever recorder.
-/

namespace DebugMetadata

variable {g g' : Graph}

/-! ## Typed recorders -/

namespace TypedRecorder

/-- The graph has the recorder's file node and compile unit. -/
structure Rooted (t : TypedRecorder) (g : Graph) : Prop where
  file : g.node? t.file = some (.debug (fileNode t.source) false)
  unit : ∃ settings, settings.optimized = t.optimized ∧
    g.node? t.unit = some (.debug (unitNode settings t.file) true)

variable {t : TypedRecorder}

theorem Rooted.mono (h : t.Rooted g) (hgrows : g.Grows g') : t.Rooted g' := by
  obtain ⟨settings, hoptimized, hunit⟩ := h.unit
  exact ⟨hgrows.nodes.node? h.file, settings, hoptimized, hgrows.nodes.node? hunit⟩

theorem Rooted.addSubprogram (h : t.Rooted g) (name linkageName : String) (line : Nat) :
    (t.addSubprogram name linkageName line g).2.1.Rooted
      (t.addSubprogram name linkageName line g).2.2 := by
  have hgrows := t.grows_addSubprogram name linkageName line g
  rw [recorder_addSubprogram]
  obtain ⟨hfile, hunit⟩ := h.mono hgrows
  exact ⟨hfile, hunit⟩

theorem rooted_create (hg : g.Indexed) (settings : Settings) (source : SourceFile) :
    (create settings source g).1.Rooted (create settings source g).2 := by
  simp only [create, Graph.addDebug_eq_add]
  have hfile := hg.node?_add (.debug (fileNode source) false)
  have hindexed := hg.add (.debug (fileNode source) false)
  generalize g.add (.debug (fileNode source) false) = file at hfile hindexed ⊢
  exact ⟨(Graph.extends_add _ _).node? hfile, settings, rfl, hindexed.node?_add _⟩

end TypedRecorder

/-! ## Tagged recorders -/

namespace TaggedRecorder

/-- The graph has the recorder's file and its pair, the compile unit and the list
that the unit refers to. -/
structure Rooted (t : TaggedRecorder) (g : Graph) : Prop where
  unit : ∃ settings pair empty, settings.optimized = t.optimized ∧
    HasFile t.source g t.file pair ∧ g.node? empty = some (.tuple emptyOperands) ∧
    g.node? t.unit = some (.tuple (unitOperands settings pair empty t.subprograms))
  subprograms : (g.list? t.subprograms).isSome

variable {t : TaggedRecorder} {m : Module}

theorem Rooted.file (h : t.Rooted g) : ∃ pair, HasFile t.source g t.file pair := by
  obtain ⟨-, pair, -, -, hfile, -⟩ := h.unit
  exact ⟨pair, hfile⟩

theorem Rooted.mono (h : t.Rooted g) (hgrows : g.Grows g') : t.Rooted g' := by
  obtain ⟨settings, pair, empty, hoptimized, hfile, hempty, hunit⟩ := h.unit
  obtain ⟨ids, hids⟩ := Option.isSome_iff_exists.mp h.subprograms
  obtain ⟨ids', hids', -⟩ := hgrows.lists t.subprograms ids hids
  exact ⟨⟨settings, pair, empty, hoptimized, hfile.mono hgrows.nodes, hgrows.nodes.node? hempty,
    hgrows.nodes.node? hunit⟩, Option.isSome_iff_exists.mpr ⟨ids', hids'⟩⟩

theorem Rooted.addSubprogram (h : t.Rooted m.graph) (name linkageName : String) (line : Nat) :
    (t.addSubprogram name linkageName line m).2.1.Rooted
      (t.addSubprogram name linkageName line m).2.2.graph := by
  have hgrows := t.grows_addSubprogram name linkageName line m
  rw [recorder_addSubprogram]
  obtain ⟨hunit, hlist⟩ := h.mono hgrows
  exact ⟨hunit, hlist⟩

theorem rooted_create (hg : g.Indexed) (settings : Settings) (source : SourceFile) :
    (create settings source g).1.Rooted (create settings source g).2 := by
  obtain ⟨pair, empty, hfile, hempty, hunit⟩ := nodes_create hg settings source
  have hsource := source_create settings source g
  have hoptimized := optimized_create settings source g
  have hlists := lists_create settings source g
  have hsubprograms := subprograms_create settings source g
  generalize create settings source g = created at *
  refine ⟨⟨settings, pair, empty, hoptimized.symm, hsource ▸ hfile, hempty, hunit⟩, ?_⟩
  rw [Graph.list?, hlists, hsubprograms, Array.getElem?_push_size]
  rfl

end TaggedRecorder

/-! ## All recorders -/

namespace Recorder

/-- The graph has what the recorder created first. -/
def Rooted : Recorder → Graph → Prop
  | .off, _ => True
  | .typed t, g => t.Rooted g
  | .tagged t, g => t.Rooted g

variable {r r' : Recorder} {m m' : Module} {c c' : Cursor} {event : Option Event}

namespace Rooted

theorem mono (h : r.Rooted g) (hgrows : g.Grows g') : r.Rooted g' := by
  cases r with
  | off => trivial
  | typed t => exact TypedRecorder.Rooted.mono h hgrows
  | tagged t => exact TaggedRecorder.Rooted.mono h hgrows

theorem create {schema : Option Schema} {settings : Settings}
    {workingDirectory path : List UInt8} (hm : m.graph.Indexed)
    (hcreate : Recorder.create schema settings workingDirectory path m = .ok (r, m', event)) :
    r.Rooted m'.graph := by
  rcases create_cases hcreate with
    ⟨-, hr, -⟩ | ⟨source, -, -, hr, hm', -⟩ | ⟨source, -, -, hr, hm', -⟩
  · rw [hr]
    trivial
  · rw [hr, hm']
    dsimp only [Rooted]
    exact TypedRecorder.rooted_create hm settings source
  · rw [hr, hm']
    dsimp only [Rooted]
    exact TaggedRecorder.rooted_create hm settings source

theorem markSubprogram (h : r.Rooted m.graph) {function : FunctionId} {name : String}
    {line : Nat} (hmark : r.markSubprogram m function name line = .ok (r', m', event)) :
    r'.Rooted m'.graph := by
  rcases markSubprogram_cases hmark with
    ⟨-, hr', -⟩ | ⟨t, f, rfl, -, hr', hm', -⟩ | ⟨t, f, rfl, -, hr', hm', -⟩
  · rw [hr']
    trivial
  · rw [hr', hm']
    exact TypedRecorder.Rooted.addSubprogram h name f.name line
  · rw [hr', hm']
    exact TaggedRecorder.Rooted.addSubprogram h name f.name line

theorem addSubprogram (h : r.Rooted m.graph) {name linkageName : String} {line : Nat}
    {id : NodeId} (hadd : r.addSubprogram? name linkageName line m = some (id, r', m')) :
    r'.Rooted m'.graph := by
  rcases addSubprogram?_cases hadd with ⟨t, rfl, -, hr', hm'⟩ | ⟨t, rfl, -, hr', hm'⟩
  · rw [hr', hm']
    exact TypedRecorder.Rooted.addSubprogram h name linkageName line
  · rw [hr', hm']
    exact TaggedRecorder.Rooted.addSubprogram h name linkageName line

theorem markLocation (h : r.Rooted m.graph) {line : Nat}
    (hmark : r.markLocation m c line = .ok (r', c', m', event)) : r'.Rooted m'.graph := by
  have hk := h.mono (grows_markLocation hmark)
  rcases markLocation_cases hmark with ⟨rfl, rfl, -⟩ | ⟨t, scope, rfl, -, rfl, -⟩ |
    ⟨t, rfl, -, rfl, -⟩ | ⟨t, scope, rfl, -, -, -, rfl, -⟩
  · exact hk
  · exact hk
  · exact hk
  · obtain ⟨hunit, hlist⟩ := hk
    exact ⟨hunit, hlist⟩

end Rooted

end Recorder

namespace Session

/-- The graph has what every recorder created first. -/
structure Rooted (s : Session) : Prop where
  indexed : s.module.graph.Indexed
  recorders : ∀ (n : Nat) (slot : RecorderSlot), s.recorders[n]? = some slot →
    slot.recorder.Rooted s.module.graph

namespace Rooted

variable {s s' : Session} {command : Command} {answer : Answer}

theorem start (workingDirectory : List UInt8) (name : String) :
    (Session.start workingDirectory name).Rooted := by
  refine ⟨Graph.indexed_empty, ?_⟩
  intro n slot hslot
  cases hslot

theorem step (h : s.Rooted) (hperform : s.Performs command answer s') : s'.Rooted := by
  have hgrows := hperform.grows
  refine ⟨hgrows.indexed h.indexed, ?_⟩
  intro n slot hslot
  cases hperform.recorderOrigin hslot with
  | kept hold => exact (h.recorders _ _ hold).mono hgrows
  | created choice settings path hn hcreate => exact .create h.indexed hcreate
  | cloned hn hold => exact (h.recorders _ _ hold).mono hgrows
  | registered function name line hold hmark => exact (h.recorders _ _ hold).markSubprogram hmark
  | marked k line hold hc hmark => exact (h.recorders _ _ hold).markLocation hmark
  | added name linkageName line hold hadd => exact (h.recorders _ _ hold).addSubprogram hadd

end Rooted

end Session

end DebugMetadata

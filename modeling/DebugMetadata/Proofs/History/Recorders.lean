import DebugMetadata.Proofs.History.Tracking

/-!
# What recorders remember of their histories

All that a tagged recorder remembers is the last line it was told and the last
subprogram it registered.  Whatever commands are performed, by whichever
recorders, it remembers them right.
-/

namespace DebugMetadata

variable {m m' : Module} {g g' : Graph} {history : History}

/-! ## One recorder -/

namespace TaggedRecorder

/-- The recorder remembers the history, whose subprograms are in the graph. -/
structure Follows (r : TaggedRecorder) (history : History) (g : Graph) : Prop where
  lastLine : r.lastLine = history.lines.getLast?
  active : r.active = history.registrations.getLast?.map (·.id)
  file : ∃ pair, HasFile r.source g r.file pair
  registered : ∀ registration ∈ history.registrations, ∃ pair type locals function,
    HasFile r.source g r.file pair ∧
    g.node? registration.id = some (.tuple (r.subprogramOperands pair r.file registration.name
      registration.linkageName registration.line type locals function))

variable {r : TaggedRecorder}

namespace Follows

theorem mono (h : r.Follows history g) (hextends : g.Extends g') : r.Follows history g' := by
  obtain ⟨pair, hfile⟩ := h.file
  refine ⟨h.lastLine, h.active, ⟨pair, hfile.mono hextends⟩, ?_⟩
  intro registration hmem
  obtain ⟨pair, type, locals, function, hfile, hnode⟩ := h.registered registration hmem
  exact ⟨pair, type, locals, function, hfile.mono hextends, hextends.node? hnode⟩

theorem create (hg : g.Indexed) (settings : Settings) (source : SourceFile) :
    (create settings source g).1.Follows {} (create settings source g).2 := by
  obtain ⟨pair, -, hfile, -⟩ := nodes_create hg settings source
  have hlast := lastLine_create settings source g
  have hactive := active_create settings source g
  have hsource := source_create settings source g
  generalize TaggedRecorder.create settings source g = created at *
  refine ⟨hlast, hactive, ⟨pair, hsource ▸ hfile⟩, ?_⟩
  intro registration hmem
  cases hmem

theorem mark (h : r.Follows history g) (line : Nat) :
    Follows { r with lastLine := some line } { history with lines := history.lines ++ [line] } g :=
  ⟨List.getLast?_concat.symm, h.active, h.file, h.registered⟩

theorem register (h : r.Follows history m.graph) (hm : m.graph.Indexed)
    (name linkageName : String) (line : Nat) :
    (r.addSubprogram name linkageName line m).2.1.Follows
      { history with registrations := history.registrations ++
          [⟨(r.addSubprogram name linkageName line m).1, name, linkageName, line⟩] }
      (r.addSubprogram name linkageName line m).2.2.graph := by
  obtain ⟨pair, hfile⟩ := h.file
  obtain ⟨type, types, locals, hnode, -⟩ := hfile.nodes_addSubprogram hm name linkageName line
  have hextends := (r.grows_addSubprogram name linkageName line m).nodes
  have hk := h.mono hextends
  have hfile' := hfile.mono hextends
  rw [recorder_addSubprogram]
  generalize r.addSubprogram name linkageName line m = added at hnode hk hfile' ⊢
  refine ⟨hk.lastLine, ?_, hk.file, ?_⟩
  · rw [List.getLast?_concat]
    rfl
  · intro registration hmem
    rcases List.mem_append.mp hmem with hmem | hmem
    · exact hk.registered registration hmem
    · rw [List.mem_singleton] at hmem
      subst hmem
      exact ⟨pair, type, locals, m.findFunction? linkageName, hfile', hnode⟩

end Follows

end TaggedRecorder

namespace Recorder

/-- The recorder remembers the history, if it is a tagged one. -/
def Follows (r : Recorder) (history : History) (g : Graph) : Prop :=
  ∀ t, r = .tagged t → t.Follows history g

variable {r r' : Recorder} {c c' : Cursor} {id : NodeId} {event : Option Event}

namespace Follows

theorem mono (h : r.Follows history g) (hextends : g.Extends g') : r.Follows history g' :=
  fun t ht => (h t ht).mono hextends

theorem create {schema : Option Schema} {settings : Settings}
    {workingDirectory path : List UInt8} (hm : m.graph.Indexed)
    (hcreate : Recorder.create schema settings workingDirectory path m = .ok (r, m', event)) :
    r.Follows {} m'.graph := by
  intro t ht
  rcases create_cases hcreate with
    ⟨-, rfl, -⟩ | ⟨source, -, -, rfl, -⟩ | ⟨source, -, -, hr, hm', -⟩
  · cases ht
  · cases ht
  · rw [← Recorder.tagged.inj (hr.symm.trans ht), hm']
    dsimp only
    exact .create hm settings source

theorem addSubprogram (h : r.Follows history m.graph) (hm : m.graph.Indexed)
    {name linkageName : String} {line : Nat}
    (hadd : r.addSubprogram? name linkageName line m = some (id, r', m')) :
    r'.Follows (history.add r m (.addSubprogram name linkageName line)) m'.graph := by
  intro t' ht'
  rw [History.add_addSubprogram hadd]
  rcases addSubprogram?_cases hadd with ⟨t, -, -, rfl, -⟩ | ⟨t, rfl, hid, hr', hm'⟩
  · cases ht'
  · have hregister := (h t rfl).register hm name linkageName line
    rw [hid, hm', Recorder.tagged.inj (ht'.symm.trans hr')]
    exact hregister

theorem markSubprogram (h : r.Follows history m.graph) (hm : m.graph.Indexed)
    {function : FunctionId} {name : String} {line : Nat}
    (hmark : r.markSubprogram m function name line = .ok (r', m', event)) :
    r'.Follows (history.add r m (.markSubprogram function name line)) m'.graph := by
  rcases markSubprogram_cases hmark with
    ⟨-, hr', -⟩ | ⟨t, f, -, -, hr', -⟩ | ⟨t, f, rfl, hf, hr', hm', -⟩
  · intro t' ht'
    cases hr'.symm.trans ht'
  · intro t' ht'
    cases hr'.symm.trans ht'
  · have hadd := h.addSubprogram hm (addSubprogram?_tagged t name f.name line m)
    rw [History.add_markSubprogram hf, hr', hm']
    exact hadd

theorem markLocation (h : r.Follows history m.graph) {k line : Nat}
    (hmark : r.markLocation m c line = .ok (r', c', m', event)) :
    r'.Follows (history.add r m (.markLocation k line)) m'.graph := by
  have hgrows := grows_markLocation hmark
  intro t' ht'
  rw [History.add_markLocation]
  rcases markLocation_cases hmark with ⟨-, rfl, -⟩ | ⟨t, scope, -, -, rfl, -⟩ |
    ⟨t, rfl, hline, rfl, -⟩ | ⟨t, scope, rfl, -, -, -, rfl, -⟩
  · cases ht'
  · cases ht'
  · have hk := ((h t rfl).mono hgrows.nodes).mark line
    rw [← hline] at hk
    cases ht'
    exact hk
  · have hk := ((h t rfl).mono hgrows.nodes).mark line
    cases ht'
    exact hk

end Follows

/-- Every call of a recorder is remembered right. -/
theorem Follows.tracks : Tracks Follows where
  mono h hextends := h.mono hextends
  create hm hcreate := .create hm hcreate
  markSubprogram h hm hmark := h.markSubprogram hm hmark
  markLocation h hmark := h.markLocation hmark
  addSubprogram h hm hadd := h.addSubprogram hm hadd

end Recorder

/-! ## All recorders -/

namespace Session

/-- Every recorder remembers its history. -/
structure Remembers (s : Session) (histories : Array History) : Prop where
  indexed : s.module.graph.Indexed
  size : histories.size = s.recorders.size
  follows : ∀ (n : Nat) (slot : RecorderSlot) (history : History),
    s.recorders[n]? = some slot → histories[n]? = some history →
      slot.recorder.Follows history s.module.graph

theorem Remembers.run (commands : List Command) (workingDirectory : List UInt8) (name : String) :
    ((Session.start workingDirectory name).run commands).2.Remembers
      ((Session.start workingDirectory name).remember #[] commands) := by
  have htracked := Recorder.Follows.tracks.run commands workingDirectory name
  exact ⟨htracked.indexed, htracked.size, htracked.holds⟩

end Session

end DebugMetadata

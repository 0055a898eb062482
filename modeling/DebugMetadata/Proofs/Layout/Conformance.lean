import DebugMetadata.Proofs.Layout.Tuples

/-!
# Tagged graphs conform to the layout

Where all subprograms are registered for functions, whatever recorders are made and
cloned and whatever they are told, every tuple that a tagged recorder has written is in
the layout.  Recorders may share a list, and only those that lead to each other do; so a
subprogram that one of them pushes is one of every other.
-/

namespace DebugMetadata

/-- Whether the command leaves the metadata to the recorders and no subprogram without
its function. -/
def Command.marksFunctions : Command → Bool
  | .recorder _ (.addSubprogram _ _ _) => false
  | command => command.leavesMetadata

namespace Session

/-- The node is the location of a line in a subprogram that a tagged recorder has
registered. -/
def LocatesInList (s : Session) (location : NodeId) : Prop :=
  ∃ (n : Nat) (t : TaggedRecorder) (line : Nat) (scope : NodeId) (ids : Array NodeId),
    s.HasRecorder n (.tagged t) ∧ s.module.graph.list? t.subprograms = some ids ∧ scope ∈ ids ∧
    s.module.graph.node? location =
      some (.tuple [.int 32 line, .int 32 0, .node scope, .null])

/-- Everything the tagged recorders have written is in the layout. -/
structure Conforms (s : Session) : Prop where
  rooted : s.Rooted
  named : s.module.Named
  shared : ∀ {n n' : Nat} {t t' : TaggedRecorder}, s.HasRecorder n (.tagged t) →
    s.HasRecorder n' (.tagged t') → t.subprograms = t'.subprograms → t.LeadsTo t'
  listed : ∀ {n : Nat} {t : TaggedRecorder} {ids : Array NodeId} {id : NodeId},
    s.HasRecorder n (.tagged t) → s.module.graph.list? t.subprograms = some ids → id ∈ ids →
      ∃ pair, TaggedRecorder.HasFile t.source s.module.graph t.file pair ∧
        t.HasSubprogram s.module pair id
  active : ∀ {n : Nat} {t : TaggedRecorder} {ids : Array NodeId} {scope : NodeId},
    s.HasRecorder n (.tagged t) → s.module.graph.list? t.subprograms = some ids →
      t.active = some scope → scope ∈ ids
  marked : ∀ {id : InstrId} {i : Instruction} {location : NodeId},
    s.module.instruction? id = some i → i.attachments.find? "ori.dbg" = some location →
      s.LocatesInList location

variable {s s' : Session} {n n' : Nat} {t t' : TaggedRecorder} {command : Command}
  {answer : Answer} {location id : NodeId} {ids : Array NodeId}

/-! ## What a command keeps -/

/-- A list keeps its nodes. -/
theorem Performs.mem_list (h : s.Performs command answer s') {list : ListId}
    (hids : s.module.graph.list? list = some ids) (hid : id ∈ ids) :
    ∃ ids', s'.module.graph.list? list = some ids' ∧ id ∈ ids' := by
  obtain ⟨ids', hids', hinitial⟩ := h.grows.lists list ids hids
  exact ⟨ids', hids', Array.mem_toList_iff.mp (hinitial.subset (Array.mem_toList_iff.mpr hid))⟩

/-- A tagged recorder goes on under its number. -/
theorem Performs.exists_tagged (h : s.Performs command answer s')
    (ht : s.HasRecorder n (.tagged t)) :
    ∃ t', s'.HasRecorder n (.tagged t') ∧ t.LeadsTo t' := by
  obtain ⟨r', hr', hleads, -⟩ := h.exists_leadsTo ht
  cases hleads with
  | tagged hleads => exact ⟨_, hr', hleads⟩

/-- A tagged recorder was there, under its number or as the original of a clone, or has
just been created with a list of its own. -/
theorem Performs.tagged_cases (h : s.Performs command answer s')
    (ht' : s'.HasRecorder n (.tagged t')) :
    (∃ k t, s.HasRecorder k (.tagged t) ∧ t.LeadsTo t' ∧
      (t'.active = t.active ∨ TellsSubprogram command n)) ∨
    (n = s.recorders.size ∧ t'.subprograms.index = s.module.graph.lists.size ∧
      t'.active = none) := by
  rcases h.leadsTo_cases ht' with ⟨r, hr, hleads, hactive⟩ | ⟨-, k, -, hr⟩ |
    ⟨hn, choice, settings, path, event, -, hcreate⟩
  · cases hleads with
    | tagged hleads => exact .inl ⟨n, _, hr, hleads, hactive⟩
  · exact .inl ⟨k, t', hr, .refl t', .inl rfl⟩
  · rcases Recorder.create_cases hcreate with
      ⟨-, hr, -⟩ | ⟨source, -, -, hr, -⟩ | ⟨source, -, -, hr, -⟩
    · cases hr
    · cases hr
    · refine .inr ⟨hn, ?_, ?_⟩
      · rw [Recorder.tagged.inj hr, TaggedRecorder.subprograms_create]
      · rw [Recorder.tagged.inj hr]
        exact TaggedRecorder.active_create settings source _

/-- The recorder of a list that was there was there. -/
theorem Performs.tagged_of_list (h : s.Performs command answer s')
    (ht' : s'.HasRecorder n (.tagged t')) (hids : s.module.graph.list? t'.subprograms = some ids) :
    ∃ k t, s.HasRecorder k (.tagged t) ∧ t.LeadsTo t' ∧
      (t'.active = t.active ∨ TellsSubprogram command n) := by
  rcases h.tagged_cases ht' with hold | ⟨-, hindex, -⟩
  · exact hold
  · have hlt := Graph.lt_lists_size_of_list? hids
    exact absurd hlt (Nat.not_lt_of_le (Nat.le_of_eq hindex.symm))

theorem LocatesInList.step (h : s.LocatesInList location)
    (hperform : s.Performs command answer s') : s'.LocatesInList location := by
  obtain ⟨n, t, line, scope, ids, ht, hids, hscope, hnode⟩ := h
  obtain ⟨t', ht', hleads⟩ := hperform.exists_tagged ht
  obtain ⟨ids', hids', hscope'⟩ := hperform.mem_list hids hscope
  rw [← hleads.subprograms] at hids'
  exact ⟨n, t', line, scope, ids', ht', hids', hscope', hperform.grows.nodes.node? hnode⟩

/-- A tagged recorder that registers a function pushes its active subprogram. -/
theorem active_mem_of_markSubprogram {function : FunctionId} {name : String} {line : Nat}
    {scope : NodeId}
    (hperform : s.Performs (.recorder n (.markSubprogram function name line)) answer s')
    (ht' : s'.HasRecorder n (.tagged t')) (hids : s'.module.graph.list? t'.subprograms = some ids)
    (hscope : t'.active = some scope) : scope ∈ ids := by
  cases hperform with
  | @markSubprogram _ slot _ _ _ r m _ hslot hmark =>
      change m.graph.list? t'.subprograms = some ids at hids
      have hr : r = .tagged t' :=
        HasRecorder.unique ⟨_, getElem?_setRecorder_self hslot r, rfl⟩ ht'
      rcases Recorder.markSubprogram_cases hmark with
        ⟨-, hr', -⟩ | ⟨t, f, -, -, hr', -⟩ | ⟨t, f, -, -, hr', hm, -⟩
      · cases hr.symm.trans hr'
      · cases hr.symm.trans hr'
      · have hrecorder := t.recorder_addSubprogram name f.name line s.module
        have hlists := t.lists_addSubprogram name f.name line s.module
        rw [hm, Recorder.tagged.inj (hr.symm.trans hr')] at hids
        rw [Recorder.tagged.inj (hr.symm.trans hr')] at hscope
        generalize t.addSubprogram name f.name line s.module = added at hrecorder hlists hids hscope
        rw [hrecorder] at hids hscope
        cases hscope
        rw [Graph.list?, hlists, Array.getElem?_modify, if_pos rfl] at hids
        obtain ⟨old, -, rfl⟩ := Option.map_eq_some_iff.mp hids
        exact Array.mem_push_self

/-! ## Every tuple is in the layout -/

namespace Conforms

theorem start (workingDirectory : List UInt8) (name : String) :
    (Session.start workingDirectory name).Conforms := by
  have hnone {n : Nat} {t : TaggedRecorder} :
      ¬ (Session.start workingDirectory name).HasRecorder n (.tagged t) := by
    rintro ⟨slot, hslot, -⟩
    cases hslot
  refine ⟨.start workingDirectory name, Module.named_empty name, fun ht => absurd ht hnone,
    fun ht => absurd ht hnone, fun ht => absurd ht hnone, ?_⟩
  intro id i location hi
  cases hi

private theorem shared_step (h : s.Conforms) (hperform : s.Performs command answer s')
    (ht : s'.HasRecorder n (.tagged t)) (ht' : s'.HasRecorder n' (.tagged t'))
    (hsame : t.subprograms = t'.subprograms) : t.LeadsTo t' := by
  -- The list of a recorder that was there is not the one that is made anew.
  have hnew {k : Nat} {t₀ u u' : TaggedRecorder} (ht₀ : s.HasRecorder k (.tagged t₀))
      (hleads : t₀.LeadsTo u) (hindex : u'.subprograms.index = s.module.graph.lists.size) :
      u.subprograms ≠ u'.subprograms := by
    intro heq
    obtain ⟨ids, hids⟩ := Option.isSome_iff_exists.mp (h.rooted.hasRecorder ht₀).subprograms
    have hlt := Graph.lt_lists_size_of_list? hids
    rw [← hleads.subprograms, heq, hindex] at hlt
    exact absurd hlt (Nat.lt_irrefl _)
  rcases hperform.tagged_cases ht with ⟨k, u, hu, hleads, -⟩ | ⟨hn, hindex, -⟩
  · rcases hperform.tagged_cases ht' with ⟨k', u', hu', hleads', -⟩ | ⟨-, hindex', -⟩
    · have hsame' : u.subprograms = u'.subprograms := by
        rw [← hleads.subprograms, hsame, hleads'.subprograms]
      exact (hleads.symm.trans (h.shared hu hu' hsame')).trans hleads'
    · exact absurd hsame (hnew hu hleads hindex')
  · rcases hperform.tagged_cases ht' with ⟨k', u', hu', hleads', -⟩ | ⟨hn', -, -⟩
    · exact absurd hsame.symm (hnew hu' hleads' hindex)
    · cases hn.trans hn'.symm
      cases ht.unique ht'
      exact .refl t

private theorem listed_step (h : s.Conforms) (hcommand : command.marksFunctions = true)
    (hperform : s.Performs command answer s') (ht' : s'.HasRecorder n (.tagged t'))
    (hids : s'.module.graph.list? t'.subprograms = some ids) (hid : id ∈ ids) :
    ∃ pair, TaggedRecorder.HasFile t'.source s'.module.graph t'.file pair ∧
      t'.HasSubprogram s'.module pair id := by
  -- A node that was in the list is a subprogram of every recorder of the list.
  have hold {ids₀ : Array NodeId} (hids₀ : s.module.graph.list? t'.subprograms = some ids₀)
      (hmem : id ∈ ids₀) : ∃ pair, TaggedRecorder.HasFile t'.source s'.module.graph t'.file pair ∧
        t'.HasSubprogram s'.module pair id := by
    obtain ⟨k, t, ht, hleads, -⟩ := hperform.tagged_of_list ht' hids₀
    rw [hleads.subprograms] at hids₀
    obtain ⟨pair, hfile, hsubprogram⟩ := h.listed ht hids₀ hmem
    rw [hleads.source, hleads.file]
    exact ⟨pair, hfile.mono hperform.grows.nodes, (hsubprogram.of_leadsTo hleads).step hperform⟩
  cases hperform.listOrigin hids with
  | kept hids₀ => exact hold hids₀ hid
  | edited edit hedit => cases hcommand
  | created choice settings path hlist => exact absurd hid (Array.not_mem_empty id)
  | added name linkageName line hslot ht hlist hids₀ hgraph => cases hcommand
  | @registered k slot t f ids₀ function name line hslot ht hf hlist hids₀ hgraph =>
      rcases Array.mem_push.mp hid with hmem | hpushed
      · exact hold hids₀ hmem
      · rw [hpushed]
        obtain ⟨k', u, hu, hleads, -⟩ := hperform.tagged_of_list ht' hids₀
        have hsame : t.subprograms = u.subprograms := by rw [← hlist, hleads.subprograms]
        obtain ⟨pair, hfile⟩ := (h.rooted.hasRecorder ⟨slot, hslot, ht⟩).file
        have hnew := TaggedRecorder.hasSubprogram_addSubprogram h.rooted.indexed h.named hfile hf
          name line
        have hleads' := (h.shared ⟨slot, hslot, ht⟩ hu hsame).trans hleads
        obtain ⟨name', line', type, types, locals, function', f', hnode, htype, htypes, hlocals,
          hf'⟩ := hnew.of_leadsTo hleads'
        rw [← hgraph] at hnode htype htypes hlocals
        rw [TaggedRecorder.module_addSubprogram, Module.function?_graph] at hf'
        obtain ⟨f'', hf'', hname⟩ := hperform.function_name hf'
        rw [← hname] at hnode
        rw [hleads'.source, hleads'.file]
        exact ⟨pair, hfile.mono hperform.grows.nodes, name', line', type, types, locals, function',
          f'', hnode, htype, htypes, hlocals, hf''⟩

private theorem active_step {scope : NodeId} (h : s.Conforms)
    (hcommand : command.marksFunctions = true) (hperform : s.Performs command answer s')
    (ht' : s'.HasRecorder n (.tagged t')) (hids : s'.module.graph.list? t'.subprograms = some ids)
    (hscope : t'.active = some scope) : scope ∈ ids := by
  rcases hperform.tagged_cases ht' with ⟨k, t, ht, hleads, hsame | htells⟩ | ⟨-, -, hnone⟩
  · obtain ⟨ids₀, hids₀⟩ := Option.isSome_iff_exists.mp (h.rooted.hasRecorder ht).subprograms
    obtain ⟨ids', hids', hmem⟩ :=
      hperform.mem_list hids₀ (h.active ht hids₀ (hsame.symm.trans hscope))
    rw [← hleads.subprograms] at hids'
    cases hids.symm.trans hids'
    exact hmem
  · rcases htells with ⟨function, name, line, rfl⟩ | ⟨name, linkageName, line, rfl⟩
    · exact active_mem_of_markSubprogram hperform ht' hids hscope
    · cases hcommand
  · cases hnone.symm.trans hscope

private theorem marked_step {id : InstrId} {i : Instruction} (h : s.Conforms)
    (hcommand : command.marksFunctions = true) (hperform : s.Performs command answer s')
    (hi : s'.module.instruction? id = some i)
    (hlocation : i.attachments.find? "ori.dbg" = some location) : s'.LocatesInList location := by
  cases hperform.instructionOrigin hi with
  | kept hold => exact (h.marked hold hlocation).step hperform
  | attached key node hold => cases hcommand
  | emitted operation hc hblock => cases hlocation
  | @marker n k slot t c scope line hslot ht hc hblock hscope hgraph =>
      cases (TaggedRecorder.find?_markerAt c line _).symm.trans hlocation
      have htagged : s.HasRecorder n (.tagged t) := ⟨slot, hslot, ht⟩
      obtain ⟨ids, hids⟩ := Option.isSome_iff_exists.mp (h.rooted.hasRecorder htagged).subprograms
      obtain ⟨ids', hids', hmem⟩ := hperform.mem_list hids (h.active htagged hids hscope)
      obtain ⟨t', ht', hleads⟩ := hperform.exists_tagged htagged
      rw [← hleads.subprograms] at hids'
      refine ⟨n, t', line, scope, ids', ht', hids', hmem, ?_⟩
      rw [hgraph]
      exact h.rooted.indexed.node?_add (.tuple (TaggedRecorder.locationOperands line scope))

theorem step (h : s.Conforms) (hcommand : command.marksFunctions = true)
    (hperform : s.Performs command answer s') : s'.Conforms where
  rooted := h.rooted.step hperform
  named := hperform.named h.named
  shared := h.shared_step hperform
  listed := h.listed_step hcommand hperform
  active := h.active_step hcommand hperform
  marked := h.marked_step hcommand hperform

end Conforms

/-- Wherever such commands have led, every tagged recorder has its pair, its file and its
compile unit in the layout: the unit refers to the pair, to the recorder's own list and,
in four places, to an empty tuple.  Every node of the list is a subprogram in the layout,
and the active one is in it.  The location of a marker is a tuple of a line and such a
subprogram. -/
theorem tagged_tuples_conform (workingDirectory : List UInt8) (name : String)
    (commands : List Command) (hcommands : ∀ command ∈ commands, command.marksFunctions = true)
    (hrun : ((Session.start workingDirectory name).run commands).2 = s) :
    (∀ n t, s.HasRecorder n (.tagged t) → ∃ pair,
      s.module.graph.node? pair =
        some (.tuple [.str t.source.filename, .str t.source.directory]) ∧
      s.module.graph.node? t.file = some (.tuple [.int 32 786473, .node pair]) ∧
      s.module.graph.addTuple [.str t.source.filename, .str t.source.directory] =
        (pair, s.module.graph) ∧
      s.module.graph.addTuple [.int 32 786473, .node pair] = (t.file, s.module.graph) ∧
      (∃ (settings : Settings) (empty : NodeId), s.module.graph.node? t.unit = some (.tuple
        [.int 32 786449, .node pair, .int 32 settings.language.code, .str settings.producer,
          .int 1 (if t.optimized then 1 else 0), .str "", .int 32 0, .node empty, .node empty,
          .list t.subprograms, .node empty, .node empty, .str ""]) ∧
        s.module.graph.node? empty = some (.tuple [.int 32 0])) ∧
      ∃ ids, s.module.graph.list? t.subprograms = some ids ∧
        (∀ scope, t.active = some scope → scope ∈ ids) ∧
        ∀ id ∈ ids, t.HasSubprogram s.module pair id) ∧
    ∀ id i location, s.module.instruction? id = some i →
      i.attachments.find? "ori.dbg" = some location → s.LocatesInList location := by
  have hmeets : (Session.start workingDirectory name).meets (fun _ kept _ => kept)
      (fun _ _ command => command.marksFunctions) () commands = true := meets_of_forall hcommands
  have hconforms := invariant_of_meets (I := fun s _ => s.Conforms)
    (fun h hcommand hperform => Conforms.step h hcommand hperform)
    (Conforms.start workingDirectory name) hmeets
  rw [hrun] at hconforms
  refine ⟨?_, fun id i location => hconforms.marked⟩
  intro n t ht
  have hrooted : t.Rooted s.module.graph := hconforms.rooted.hasRecorder ht
  obtain ⟨settings, pair, empty, hoptimized, hfile, hempty, hunit⟩ := hrooted.unit
  obtain ⟨haddPair, haddFile⟩ := hfile.addTuple_eq hconforms.rooted.indexed
  obtain ⟨ids, hids⟩ := Option.isSome_iff_exists.mp hrooted.subprograms
  refine ⟨pair, hfile.1, hfile.2, haddPair, haddFile, ⟨settings, empty, ?_, hempty⟩, ids, hids,
    fun scope => hconforms.active ht hids, ?_⟩
  · rw [← hoptimized]
    exact hunit
  · intro id hid
    obtain ⟨pair', hfile', hsubprogram⟩ := hconforms.listed ht hids hid
    exact hfile.unique hfile' ▸ hsubprogram

/-- Two recorders of one file register the same function, and one of them marks a line
in it. -/
def sharedSourceRun : List Command :=
  [.addFunction "main" ⟨.void, []⟩, .appendBlock ⟨0⟩ "entry", .openCursor ⟨0⟩,
    .createRecorder (.fixed .legacy) {} [0x2F, 0x61],
    .createRecorder (.fixed .legacy) {} [0x2F, 0x61],
    .recorder 0 (.markSubprogram ⟨0⟩ "main" 1), .recorder 1 (.markSubprogram ⟨0⟩ "main" 1),
    .recorder 1 (.markLocation 0 2)]

private def taggedActive? : Recorder → Option NodeId
  | .tagged t => t.active
  | _ => none

private theorem exists_tagged_of_active {r : Recorder} {scope : NodeId}
    (h : taggedActive? r = some scope) : ∃ t, r = .tagged t ∧ t.active = some scope := by
  cases r with
  | tagged t => exact ⟨t, rfl, h⟩
  | off => cases h
  | typed t => cases h

/-- The recorder made last has its active subprogram in its list and in the layout, and
the marker is located in such a subprogram. -/
theorem tagged_tuples_conform_for_shared_source :
    (∀ command ∈ sharedSourceRun, command.marksFunctions = true) ∧
    ∃ s t scope pair ids i location,
      ((Session.start [] "m").run sharedSourceRun).2 = s ∧ s.HasRecorder 1 (.tagged t) ∧
      t.active = some scope ∧ s.module.graph.list? t.subprograms = some ids ∧ scope ∈ ids ∧
      s.module.graph.node? t.file = some (.tuple [.int 32 786473, .node pair]) ∧
      t.HasSubprogram s.module pair scope ∧ s.module.instruction? ⟨0⟩ = some i ∧
      i.attachments.find? "ori.dbg" = some location ∧ s.LocatesInList location := by
  have hcommands : ∀ command ∈ sharedSourceRun, command.marksFunctions = true := by decide
  let declared := startDeclaring [] "m" "main" ⟨.void, []⟩
  have hdeclare := perform_start_addFunction [] "m" "main" ⟨.void, []⟩
  have hrun : ((Session.start [] "m").run sharedSourceRun).2 =
      (declared.run sharedSourceRun.tail).2 := run_cons hdeclare _
  have hactive : ((declared.run sharedSourceRun.tail).2.recorders[1]?.bind
      (taggedActive? ·.recorder)).isSome = true := by decide +kernel
  have hmarker : (((declared.run sharedSourceRun.tail).2.module.instruction? ⟨0⟩).bind
      (·.attachments.find? "ori.dbg")).isSome = true := by decide +kernel
  obtain ⟨scope, hscope⟩ := Option.isSome_iff_exists.mp hactive
  obtain ⟨slot, hslot, hscope⟩ := Option.bind_eq_some_iff.mp hscope
  obtain ⟨t, ht, hscope⟩ := exists_tagged_of_active hscope
  obtain ⟨location, hlocation⟩ := Option.isSome_iff_exists.mp hmarker
  obtain ⟨i, hi, hlocation⟩ := Option.bind_eq_some_iff.mp hlocation
  obtain ⟨hrecorders, hmarkers⟩ := tagged_tuples_conform [] "m" sharedSourceRun hcommands hrun
  obtain ⟨pair, -, hfile, -, -, -, ids, hids, hlisted, hlayout⟩ :=
    hrecorders 1 t ⟨slot, hslot, ht⟩
  have hmem := hlisted scope hscope
  exact ⟨hcommands, _, t, scope, pair, ids, i, location, hrun, ⟨slot, hslot, ht⟩, hscope, hids,
    hmem, hfile, hlayout scope hmem, hi, hlocation, hmarkers ⟨0⟩ i location hi hlocation⟩

end Session

end DebugMetadata

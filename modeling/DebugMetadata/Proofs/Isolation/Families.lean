import DebugMetadata.Proofs.Isolation.Ledger

/-!
# Families of recorders

A recorder and its clones have the same compile unit and, if they are tagged, the same
list.  Recorders of different families share neither, even if they are of the same source
file: a unit is a node of its own, or refers to a list that was made for it.  So a list
holds what its own family has registered.
-/

namespace DebugMetadata

variable {g : Graph} {m m' : Module}

/-! ## Handles that a recorder has to itself -/

theorem TypedRecorder.size_le_unit_create (settings : Settings) (source : SourceFile) (g : Graph) :
    g.size ≤ (create settings source g).1.unit.index := by
  simp only [create, Graph.addDebug_eq_add]
  have hle := (g.grows_add (.debug (fileNode source) false)).nodes.length_le
  generalize g.add (.debug (fileNode source) false) = file at hle ⊢
  rw [Array.length_toList, Array.length_toList] at hle
  exact hle

namespace Recorder

variable {r r' : Recorder} {schema : Option Schema} {settings : Settings}
  {workingDirectory path : List UInt8} {event : Option Event} {id : NodeId} {list : ListId}

/-- A recorder and its clones keep the handle, and one that has just been created has
none that was there before. -/
structure IsOwn {α : Type} (handle : Recorder → Option α) : Prop where
  kept : ∀ {r r' : Recorder}, r.LeadsTo r' → handle r' = handle r
  fresh : ∀ {r r' : Recorder} {m m' : Module} {schema : Option Schema} {settings : Settings}
    {workingDirectory path : List UInt8} {event : Option Event} {a : α}, m.graph.Indexed →
    create schema settings workingDirectory path m = .ok (r', m', event) →
    r.Rooted m.graph → handle r = some a → handle r' ≠ some a

theorem Rooted.exists_unit (h : r.Rooted g) (hunit : r.unit? = some id) :
    ∃ node, g.node? id = some node := by
  cases r with
  | off => cases hunit
  | typed t =>
      cases hunit
      obtain ⟨settings, -, hnode⟩ := TypedRecorder.Rooted.unit h
      exact ⟨_, hnode⟩
  | tagged t =>
      cases hunit
      obtain ⟨settings, pair, empty, -, -, -, hnode⟩ := TaggedRecorder.Rooted.unit h
      exact ⟨_, hnode⟩

theorem Rooted.exists_list (h : r.Rooted g) (hlist : r.list? = some list) :
    ∃ ids, g.list? list = some ids := by
  cases r with
  | off => cases hlist
  | typed t => cases hlist
  | tagged t =>
      cases hlist
      exact Option.isSome_iff_exists.mp (TaggedRecorder.Rooted.subprograms h)

/-- The unit of a tagged recorder tells its list. -/
theorem Rooted.list?_of_unit? {t : TaggedRecorder} (ht : t.Rooted g) (h : r.Rooted g)
    (hunit : r.unit? = some t.unit) : r.list? = some t.subprograms := by
  obtain ⟨settings, pair, empty, -, -, -, hnode⟩ := ht.unit
  cases r with
  | off => cases hunit
  | typed u =>
      obtain ⟨settings', -, hnode'⟩ := TypedRecorder.Rooted.unit h
      rw [Option.some.inj hunit, hnode] at hnode'
      cases hnode'
  | tagged u =>
      obtain ⟨settings', pair', empty', -, -, -, hnode'⟩ := TaggedRecorder.Rooted.unit h
      rw [Option.some.inj hunit, hnode] at hnode'
      simp only [Option.some.injEq, Node.tuple.injEq, TaggedRecorder.unitOperands,
        List.cons.injEq, Operand.list.injEq] at hnode'
      simp only [list?, hnode']

theorem isOwn_list? : IsOwn list? where
  kept := by
    intro r r' hleads
    cases hleads with
    | off => rfl
    | typed h => rfl
    | tagged h => exact congrArg some h.subprograms
  fresh := by
    intro r r' m m' schema settings workingDirectory path event list hm hcreate hr hlist hlist'
    obtain ⟨ids, hids⟩ := hr.exists_list hlist
    have hlt := Graph.lt_lists_size_of_list? hids
    rcases create_cases hcreate with
      ⟨-, hr', -⟩ | ⟨source, -, -, hr', -⟩ | ⟨source, -, -, hr', -⟩
    · rw [hr'] at hlist'
      cases hlist'
    · rw [hr'] at hlist'
      cases hlist'
    · rw [hr', list?, TaggedRecorder.subprograms_create, Option.some.injEq] at hlist'
      rw [← hlist'] at hlt
      exact absurd hlt (Nat.lt_irrefl _)

theorem isOwn_unit? : IsOwn unit? where
  kept := by
    intro r r' hleads
    cases hleads with
    | off => rfl
    | typed h => exact congrArg some h.unit
    | tagged h => exact congrArg some h.unit
  fresh := by
    intro r r' m m' schema settings workingDirectory path event id hm hcreate hr hunit hunit'
    have hrooted := Rooted.create hm hcreate
    have hgrows := grows_create hcreate
    rcases create_cases hcreate with
      ⟨-, hr', -⟩ | ⟨source, -, -, hr', -⟩ | ⟨source, -, -, hr', -⟩
    · rw [hr'] at hunit'
      cases hunit'
    · obtain ⟨node, hnode⟩ := hr.exists_unit hunit
      have hlt := Graph.lt_size_of_node? hnode
      have hle := TypedRecorder.size_le_unit_create settings source m.graph
      rw [hr', unit?, Option.some.injEq] at hunit'
      rw [hunit'] at hle
      exact absurd hlt (Nat.not_lt_of_le hle)
    · generalize (TaggedRecorder.create settings source m.graph).1 = t at hr'
      subst hr'
      cases hunit'
      exact isOwn_list?.fresh hm hcreate hr ((hr.mono hgrows).list?_of_unit? hrooted hunit) rfl

/-- A recorder that has just been created has an empty list. -/
theorem list?_of_create (hcreate : create schema settings workingDirectory path m =
    .ok (r', m', event)) (hlist : r'.list? = some list) : m'.graph.list? list = some #[] := by
  rcases create_cases hcreate with
    ⟨-, hr', -⟩ | ⟨source, -, -, hr', -⟩ | ⟨source, -, -, hr', hm', -⟩
  · rw [hr'] at hlist
    cases hlist
  · rw [hr'] at hlist
    cases hlist
  · rw [hr', list?, TaggedRecorder.subprograms_create, Option.some.injEq] at hlist
    rw [hm', ← hlist, Graph.list?]
    dsimp only
    rw [TaggedRecorder.lists_create]
    exact Array.getElem?_push_size

/-! ## Registration -/

variable {name linkageName : String} {line : Nat} {function : FunctionId}

/-- A subprogram is pushed to the list of the recorder, if it has one. -/
theorem list?_addSubprogram? (h : r.addSubprogram? name linkageName line m = some (id, r', m'))
    (list : ListId) :
    m'.graph.list? list =
      if r.list? = some list then (m.graph.list? list).map (·.push id)
      else m.graph.list? list := by
  rcases addSubprogram?_cases h with ⟨t, rfl, -, -, hm'⟩ | ⟨t, rfl, hid, -, hm'⟩
  · rw [hm', if_neg (by simp [list?]), Graph.list?, TypedRecorder.lists_addSubprogram, Graph.list?]
  · rw [hm', hid, Graph.list?, TaggedRecorder.lists_addSubprogram, Array.getElem?_modify,
      Graph.list?]
    by_cases hlist : t.subprograms = list
    · rw [if_pos (congrArg ListId.index hlist), if_pos (by rw [list?, hlist])]
    · have hindex : t.subprograms.index ≠ list.index := fun h => hlist (congrArg ListId.mk h)
      have hother : (tagged t).list? ≠ some list := fun h => hlist (Option.some.inj h)
      rw [if_neg hindex, if_neg hother]

/-- The mark of a function adds a subprogram under its name. -/
theorem addSubprogram?_of_markSubprogram
    (h : r.markSubprogram m function name line = .ok (r', m', event)) :
    (r = .off ∧ m' = m) ∨
      ∃ f id m₁, m.function? function = some f ∧
        r.addSubprogram? name f.name line m = some (id, r', m₁) ∧ m'.graph = m₁.graph := by
  rcases markSubprogram_cases h with
    ⟨hr, -, hm', -⟩ | ⟨t, f, rfl, hf, hr', hm', -⟩ | ⟨t, f, rfl, hf, hr', hm', -⟩
  · exact .inl ⟨hr, hm'⟩
  · refine .inr ⟨f, (t.addSubprogram name f.name line m.graph).1,
      { m with graph := (t.addSubprogram name f.name line m.graph).2.2 }, hf, ?_, ?_⟩
    · rw [hr']
      simp only [addSubprogram?]
    · rw [hm']
      rfl
  · rw [hr', hm']
    exact .inr ⟨f, _, _, hf, addSubprogram?_tagged t name f.name line m, rfl⟩

end Recorder

namespace Session

variable {s s' : Session} {ledger : Ledger} {command : Command} {answer : Answer} {n family : Nat}
  {r r' : Recorder} {list : ListId} {ids : Array NodeId}

/-! ## Families over time -/

theorem exists_family? (hsize : ledger.entries.size = s.recorders.size) (hr : s.HasRecorder n r) :
    ∃ family, ledger.family? n = some family := by
  have hlt : n < ledger.entries.size := hsize ▸ hr.lt
  refine ⟨ledger.entries[n].family, ?_⟩
  rw [Ledger.family?, Array.getElem?_eq_getElem hlt]
  rfl

/-- A recorder that is told something stays in its family. -/
theorem families_told {command : RecorderCommand} {slot : RecorderSlot}
    (hslot : s.recorders[n]? = some slot) (hclone : command ≠ .clone) (ledger : Ledger) :
    (s.ledgerAfter ledger (.recorder n command)).entries.size = ledger.entries.size ∧
      ∀ k, (s.ledgerAfter ledger (.recorder n command)).family? k = ledger.family? k := by
  rw [ledgerAfter_recorder hslot hclone]
  exact ⟨ledger.size_add _ _ _ _, ledger.family?_add _ _ _ _⟩

/-- A command tells of a new recorder, which is the first of its family or a clone, or
leaves all recorders in their families. -/
theorem Performs.ledger_cases (h : s.Performs command answer s') (ledger : Ledger) :
    (s'.recorders.size = s.recorders.size ∧
      (s.ledgerAfter ledger command).entries.size = ledger.entries.size ∧
      ∀ n, (s.ledgerAfter ledger command).family? n = ledger.family? n) ∨
    (s'.recorders.size = s.recorders.size + 1 ∧
      (∃ choice settings path, command = .createRecorder choice settings path) ∧
      s.ledgerAfter ledger command = ledger.push ledger.entries.size) ∨
    (s'.recorders.size = s.recorders.size + 1 ∧ ∃ k < s.recorders.size,
      command = .recorder k .clone ∧
      s.ledgerAfter ledger command = ledger.push ((ledger.family? k).getD k)) := by
  cases h with
  | createRecorder choice settings path hcreate =>
      exact .inr (.inl ⟨Array.size_push _, ⟨choice, settings, path, rfl⟩, rfl⟩)
  | clone hslot hexposed =>
      exact .inr (.inr ⟨Array.size_push _, _, (Array.getElem?_eq_some_iff.mp hslot).1, rfl, rfl⟩)
  | markSubprogram function name line hslot hmark =>
      exact .inl ⟨size_setRecorder _ _ _, families_told hslot (by simp) ledger⟩
  | markLocation line hslot hc hmark =>
      exact .inl ⟨size_setRecorder _ _ _, families_told hslot (by simp) ledger⟩
  | addSubprogram name linkageName line hslot hexposed hadd =>
      exact .inl ⟨size_setRecorder _ _ _, families_told hslot (by simp) ledger⟩
  | finalize hslot => exact .inl ⟨rfl, families_told hslot (by simp) ledger⟩
  | addLocation line hslot hexposed hadd => exact .inl ⟨rfl, families_told hslot (by simp) ledger⟩
  | _ => exact .inl ⟨rfl, rfl, fun _ => rfl⟩

/-- A recorder is in the family of one that was there and led to it, or has just been
created and is the first of its family. -/
theorem Performs.family_cases (h : s.Performs command answer s')
    (hsize : ledger.entries.size = s.recorders.size) (hr' : s'.HasRecorder n r') :
    (∃ k r, s.HasRecorder k r ∧ r.LeadsTo r' ∧
      (s.ledgerAfter ledger command).family? n = ledger.family? k) ∨
    (n = s.recorders.size ∧ (s.ledgerAfter ledger command).family? n = some n ∧
      (s.ledgerAfter ledger command).subprograms = ledger.subprograms ∧
      ∃ schema settings path event,
        Recorder.create schema settings s.workingDirectory path s.module =
          .ok (r', s'.module, event)) := by
  rcases h.leadsTo_cases hr' with ⟨r, hr, hleads, -⟩ | ⟨hn, k, rfl, hr⟩ |
    ⟨hn, choice, settings, path, event, rfl, hcreate⟩
  · refine .inl ⟨n, r, hr, hleads, ?_⟩
    have hold : n ≠ ledger.entries.size := hsize ▸ Nat.ne_of_lt hr.lt
    rcases h.ledger_cases ledger with ⟨-, -, hsame⟩ | ⟨-, -, hpush⟩ | ⟨-, k, -, -, hpush⟩
    · exact hsame n
    · rw [hpush, Ledger.family?_push_of_ne hold]
    · rw [hpush, Ledger.family?_push_of_ne hold]
  · obtain ⟨family, hfamily⟩ := exists_family? hsize hr
    refine .inl ⟨k, r', hr, .refl r', ?_⟩
    rw [ledgerAfter, hn.trans hsize.symm, Ledger.family?_push_self, hfamily]
    rfl
  · refine .inr ⟨hn, ?_, rfl, choice.schema settings, settings, path, event, hcreate⟩
    rw [ledgerAfter, hn.trans hsize.symm, Ledger.family?_push_self]

theorem Performs.size_ledgerAfter (h : s.Performs command answer s')
    (hsize : ledger.entries.size = s.recorders.size) :
    (s.ledgerAfter ledger command).entries.size = s'.recorders.size := by
  rcases h.ledger_cases ledger with ⟨hsize', hsame, -⟩ | ⟨hsize', -, hpush⟩ |
    ⟨hsize', k, -, -, hpush⟩
  · rw [hsame, hsize', hsize]
  · rw [hpush, Ledger.size_push, hsize', hsize]
  · rw [hpush, Ledger.size_push, hsize', hsize]

/-- A family is named after a recorder that there is. -/
theorem Performs.bounded_ledgerAfter (h : s.Performs command answer s')
    (hsize : ledger.entries.size = s.recorders.size)
    (hbounded : ∀ n family, ledger.family? n = some family → family < s.recorders.size) :
    ∀ n family, (s.ledgerAfter ledger command).family? n = some family →
      family < s'.recorders.size := by
  intro n family hfamily
  rcases h.ledger_cases ledger with ⟨hsize', -, hsame⟩ | ⟨hsize', -, hpush⟩ |
    ⟨hsize', k, hk, -, hpush⟩
  · rw [hsame] at hfamily
    exact hsize' ▸ hbounded n family hfamily
  · rw [hpush, Ledger.family?_push] at hfamily
    rw [hsize']
    split at hfamily
    · cases hfamily
      exact hsize ▸ Nat.lt_succ_self _
    · exact Nat.lt_succ_of_lt (hbounded n family hfamily)
  · rw [hpush, Ledger.family?_push] at hfamily
    rw [hsize']
    split at hfamily
    · rw [← Option.some.inj hfamily]
      refine Nat.lt_succ_of_lt ?_
      cases hfound : ledger.family? k with
      | none => exact hk
      | some family' => exact hbounded k family' hfound
    · exact Nat.lt_succ_of_lt (hbounded n family hfamily)

/-! ## Lists over time -/

/-- A command that tells of no subprogram leaves the lists as they are. -/
theorem Performs.list?_of_not_tells (h : s.Performs command answer s')
    (hcommand : command.leavesMetadata = true) (htells : ∀ n, ¬ TellsSubprogram command n)
    (hids : s.module.graph.list? list = some ids) : s'.module.graph.list? list = some ids := by
  obtain ⟨ids', hids', -⟩ := h.grows.lists list ids hids
  rw [hids']
  cases h.listOrigin hids' with
  | kept hkept => rw [← hkept, hids]
  | edited edit hedit => cases hcommand
  | created choice settings path hnew =>
      exact absurd hnew (Nat.ne_of_lt (Graph.lt_lists_size_of_list? hids))
  | registered function name line hslot ht hf hlist hold hgraph =>
      exact absurd (.inl ⟨function, name, line, rfl⟩) (htells _)
  | added name linkageName line hslot ht hlist hold hgraph =>
      exact absurd (.inr ⟨name, linkageName, line, rfl⟩) (htells _)

theorem subprograms_ledgerAfter (ledger : Ledger) (htells : ∀ n, ¬ TellsSubprogram command n) :
    (s.ledgerAfter ledger command).subprograms = ledger.subprograms := by
  cases command with
  | recorder n command =>
      cases command with
      | clone => rfl
      | markSubprogram function name line =>
          exact absurd (.inl ⟨function, name, line, rfl⟩) (htells n)
      | addSubprogram name linkageName line =>
          exact absurd (.inr ⟨name, linkageName, line, rfl⟩) (htells n)
      | _ =>
          cases hslot : s.recorders[n]? with
          | none => simp only [ledgerAfter, hslot]
          | some slot =>
              rw [ledgerAfter_recorder hslot (by simp)]
              exact List.append_nil _
  | _ => rfl

/-- A command registers a subprogram for the family of a recorder and pushes it to the
list of the recorder, if it has one, or it registers none and leaves the lists as they
are. -/
theorem Performs.registers_cases (h : s.Performs command answer s')
    (hcommand : command.leavesMetadata = true) (ledger : Ledger) :
    ((s.ledgerAfter ledger command).subprograms = ledger.subprograms ∧
      ∀ list ids, s.module.graph.list? list = some ids →
        s'.module.graph.list? list = some ids) ∨
    ∃ k r id, s.HasRecorder k r ∧
      (s.ledgerAfter ledger command).subprograms =
        ledger.subprograms ++ [((ledger.family? k).getD k, id)] ∧
      ∀ list, s'.module.graph.list? list =
        if r.list? = some list then (s.module.graph.list? list).map (·.push id)
        else s.module.graph.list? list := by
  by_cases htells : ∀ n, ¬ TellsSubprogram command n
  · exact .inl ⟨subprograms_ledgerAfter ledger htells,
      fun list ids hids => h.list?_of_not_tells hcommand htells hids⟩
  · obtain ⟨n, htells⟩ := not_forall_not.mp htells
    rcases htells with ⟨function, name, line, rfl⟩ | ⟨name, linkageName, line, rfl⟩
    · cases h with
      | @markSubprogram _ slot _ _ _ r m event hslot hmark =>
          rw [ledgerAfter_recorder hslot (by simp)]
          rcases Recorder.addSubprogram?_of_markSubprogram hmark with
            ⟨hr, hm⟩ | ⟨f, id, m₁, hf, hadd, hgraph⟩
          · refine .inl ⟨?_, ?_⟩
            · rw [Ledger.add, hr]
              simp [Recorder.registration?, Recorder.addSubprogram?]
            · rw [report, setRecorder, hm]
              exact fun _ _ hids => hids
          · refine .inr ⟨n, slot.recorder, id, ⟨slot, hslot, rfl⟩, ?_, ?_⟩
            · simp [Ledger.add, Recorder.registration?, hf, hadd]
            · rw [report, setRecorder, hgraph]
              exact Recorder.list?_addSubprogram? hadd
    · cases h with
      | @addSubprogram _ slot _ _ _ id r m hslot hexposed hadd =>
          rw [ledgerAfter_recorder hslot (by simp)]
          refine .inr ⟨n, slot.recorder, id, ⟨slot, hslot, rfl⟩, ?_, ?_⟩
          · simp [Ledger.add, Recorder.registration?, hadd]
          · exact Recorder.list?_addSubprogram? hadd

/-! ## Families stay apart -/

/-- The recorders of a family have the same handle, and no others have it. -/
def TellsApart {α : Type} (handle : Recorder → Option α) (s : Session) (ledger : Ledger) : Prop :=
  ∀ (n n' : Nat) (r r' : Recorder) (a : α), s.HasRecorder n r → s.HasRecorder n' r' →
    handle r = some a → (handle r' = some a ↔ ledger.family? n' = ledger.family? n)

/-- The families are those of recorders that there are, and each has its own unit and its
own list, which holds what was registered in it. -/
structure Apart (s : Session) (ledger : Ledger) : Prop where
  rooted : s.Rooted
  size : ledger.entries.size = s.recorders.size
  bounded : ∀ n family, ledger.family? n = some family → family < s.recorders.size
  registered : ∀ entry ∈ ledger.subprograms, entry.1 < s.recorders.size
  units : TellsApart Recorder.unit? s ledger
  lists : TellsApart Recorder.list? s ledger
  content : ∀ n r list family, s.HasRecorder n r → r.list? = some list →
    ledger.family? n = some family → ∃ ids, s.module.graph.list? list = some ids ∧
      ids.toList = ledger.registered family

theorem TellsApart.step {α : Type} {handle : Recorder → Option α}
    (h : TellsApart handle s ledger) (hown : Recorder.IsOwn handle) (hrooted : s.Rooted)
    (hsize : ledger.entries.size = s.recorders.size)
    (hbounded : ∀ n family, ledger.family? n = some family → family < s.recorders.size)
    (hperform : s.Performs command answer s') :
    TellsApart handle s' (s.ledgerAfter ledger command) := by
  intro n n' r r' a hr hr' ha
  rcases hperform.family_cases hsize hr with
    ⟨k, old, hold, hleads, hfamily⟩ | ⟨hn, hfamily, -, schema, settings, path, event, hcreate⟩
  · rw [hown.kept hleads] at ha
    rcases hperform.family_cases hsize hr' with ⟨k', old', hold', hleads', hfamily'⟩ |
      ⟨hn', hfamily', -, schema, settings, path, event, hcreate⟩
    · rw [hown.kept hleads', hfamily', hfamily]
      exact h k k' old old' a hold hold' ha
    · refine iff_of_false (hown.fresh hrooted.indexed hcreate (hrooted.hasRecorder hold) ha) ?_
      intro hsame
      rw [hfamily', hfamily] at hsame
      exact absurd hn' (Nat.ne_of_lt (hbounded k n' hsame.symm))
  · rcases hperform.family_cases hsize hr' with
      ⟨k', old', hold', hleads', hfamily'⟩ | ⟨hn', -, -, -⟩
    · rw [hown.kept hleads', hfamily', hfamily]
      refine iff_of_false (fun ha' => ?_) fun hsame => ?_
      · exact hown.fresh hrooted.indexed hcreate (hrooted.hasRecorder hold') ha' ha
      · exact absurd hn (Nat.ne_of_lt (hbounded k' n hsame))
    · cases hn.trans hn'.symm
      cases hr.unique hr'
      exact iff_of_true ha rfl

namespace Apart

theorem start (workingDirectory : List UInt8) (name : String) :
    (Session.start workingDirectory name).Apart {} := by
  have hnone {n : Nat} {r : Recorder} :
      ¬ (Session.start workingDirectory name).HasRecorder n r := by
    rintro ⟨slot, hslot, -⟩
    cases hslot
  refine ⟨.start workingDirectory name, rfl, ?_, ?_, ?_, ?_, ?_⟩
  · intro n family hfamily
    cases hfamily
  · intro entry hentry
    cases hentry
  · exact fun n n' r r' a hr => absurd hr hnone
  · exact fun n n' r r' a hr => absurd hr hnone
  · exact fun n r list family hr => absurd hr hnone

private theorem registered_step (h : s.Apart ledger) (hcommand : command.leavesMetadata = true)
    (hperform : s.Performs command answer s') :
    ∀ entry ∈ (s.ledgerAfter ledger command).subprograms, entry.1 < s'.recorders.size := by
  intro entry hentry
  have hle := hperform.recorders_le
  rcases hperform.registers_cases hcommand ledger with ⟨hsame, -⟩ | ⟨k, r, id, hr, hadded, -⟩
  · rw [hsame] at hentry
    exact Nat.lt_of_lt_of_le (h.registered entry hentry) hle
  · rw [hadded, List.mem_append, List.mem_singleton] at hentry
    rcases hentry with hold | rfl
    · exact Nat.lt_of_lt_of_le (h.registered entry hold) hle
    · obtain ⟨family, hfamily⟩ := exists_family? h.size hr
      rw [hfamily]
      exact Nat.lt_of_lt_of_le (h.bounded k family hfamily) hle

private theorem content_step (h : s.Apart ledger) (hcommand : command.leavesMetadata = true)
    (hperform : s.Performs command answer s') (hr' : s'.HasRecorder n r')
    (hlist : r'.list? = some list)
    (hfamily' : (s.ledgerAfter ledger command).family? n = some family) :
    ∃ ids, s'.module.graph.list? list = some ids ∧
      ids.toList = (s.ledgerAfter ledger command).registered family := by
  rcases hperform.family_cases h.size hr' with ⟨k, r, hr, hleads, hfamily⟩ |
    ⟨hn, hown, hsame, schema, settings, path, event, hcreate⟩
  · rw [Recorder.isOwn_list?.kept hleads] at hlist
    rw [hfamily] at hfamily'
    obtain ⟨ids, hids, hcontent⟩ := h.content k r list family hr hlist hfamily'
    rcases hperform.registers_cases hcommand ledger with ⟨hsame, hkept⟩ |
      ⟨k', u, id, hu, hadded, hpushed⟩
    · refine ⟨ids, hkept list ids hids, ?_⟩
      rw [hcontent, Ledger.registered, Ledger.registered, hsame]
    · -- The subprogram is pushed to this list exactly if it is registered in this family.
      obtain ⟨other, hother⟩ := exists_family? h.size hu
      have hiff : u.list? = some list ↔ other = family := by
        rw [h.lists k k' r u list hr hu hlist, hother, hfamily', Option.some.injEq]
      rw [hother, Option.getD_some] at hadded
      rw [hpushed, Ledger.registered_append hadded, hids, ← hcontent]
      by_cases hsame : other = family
      · rw [if_pos (hiff.mpr hsame), if_pos hsame]
        exact ⟨_, rfl, Array.toList_push⟩
      · rw [if_neg fun hlist => hsame (hiff.mp hlist), if_neg hsame]
        exact ⟨ids, rfl, rfl⟩
  · cases hown.symm.trans hfamily'
    refine ⟨#[], Recorder.list?_of_create hcreate hlist, ?_⟩
    rw [Ledger.registered, hsame]
    symm
    apply List.filterMap_eq_nil_iff.mpr
    intro entry hentry
    exact if_neg (hn ▸ Nat.ne_of_lt (h.registered entry hentry))

theorem step (h : s.Apart ledger) (hcommand : command.leavesMetadata = true)
    (hperform : s.Performs command answer s') : s'.Apart (s.ledgerAfter ledger command) where
  rooted := h.rooted.step hperform
  size := hperform.size_ledgerAfter h.size
  bounded := hperform.bounded_ledgerAfter h.size h.bounded
  registered := h.registered_step hcommand hperform
  units := h.units.step Recorder.isOwn_unit? h.rooted h.size h.bounded hperform
  lists := h.lists.step Recorder.isOwn_list? h.rooted h.size h.bounded hperform
  content := fun _ _ _ _ hr' hlist hfamily =>
    h.content_step hcommand hperform hr' hlist hfamily

theorem run {commands : List Command}
    (hcommands : ∀ command ∈ commands, command.leavesMetadata = true)
    (workingDirectory : List UInt8) (name : String) :
    ((Session.start workingDirectory name).run commands).2.Apart
      ((Session.start workingDirectory name).follow ledgerAfter {} commands) :=
  invariant_of_meets (P := fun _ _ command => command.leavesMetadata)
    (fun h hcommand hperform => h.step hcommand hperform) (start workingDirectory name)
    (meets_of_forall hcommands)

end Apart

end Session

end DebugMetadata

import DebugMetadata.Proofs.Isolation.Families

/-!
# Sequences of subprograms

A recorder that is on has a sequence of subprograms.  That of a typed recorder is its own,
and a clone goes on with a copy of it.  That of a tagged recorder is a list of the graph, to
which its whole family pushes and to which nodes can be pushed by hand as well.  So the calls
alone tell how many subprograms each sequence has.
-/

namespace DebugMetadata

/-- The recorder that a command tells of a subprogram. -/
def Command.subprogramTo? : Command → Option Nat
  | .recorder n (.markSubprogram _ _ _) | .recorder n (.addSubprogram _ _ _) => some n
  | _ => none

/-- The list that a command pushes a node to by hand. -/
def Command.pushedList? : Command → Option ListId
  | .edit (.pushToList list _) => some list
  | _ => none

namespace Session

def list? (s : Session) (n : Nat) : Option ListId := s.recorders[n]?.bind (·.recorder.list?)

/-- Whether a command adds a subprogram to the sequence of a recorder. -/
def adds (s : Session) (ledger : Ledger) (command : Command) (n : Nat) : Bool :=
  match s.schema? n with
  | none => false
  | some .modern => command.subprogramTo? = some n
  | some .legacy =>
    (command.subprogramTo?.any fun k => ledger.family? k = ledger.family? n) ||
      command.pushedList?.any fun list => s.list? n = some list

/-- How many subprograms the sequence of each recorder has after a command that succeeds. -/
def talliesAfter (s : Session) (ledger : Ledger) (tallies : Array Nat) : Command → Array Nat
  | .createRecorder _ _ _ => tallies.push 0
  | .recorder n .clone => tallies.push (tallies.getD n 0)
  | command => tallies.mapIdx fun n tally => if s.adds ledger command n then tally + 1 else tally

variable {s s' : Session} {ledger : Ledger} {tallies : Array Nat} {command : Command}
  {answer : Answer} {n k : Nat} {r r' : Recorder} {list : ListId} {ids : Array NodeId}

/-! ## Lists -/

/-- Whether a command pushes to a list, as a subprogram of a recorder or by hand. -/
def pushes (s : Session) (command : Command) (list : ListId) : Bool :=
  (command.subprogramTo?.any fun k => s.list? k = some list) || command.pushedList? = some list

theorem hasRecorder_of_slot {slot : RecorderSlot} (hslot : s.recorders[n]? = some slot) :
    s.HasRecorder n slot.recorder :=
  ⟨slot, hslot, rfl⟩

theorem HasRecorder.list?_eq (h : s.HasRecorder n r) : s.list? n = r.list? := by
  obtain ⟨slot, hslot, rfl⟩ := h
  rw [list?, hslot]
  rfl

theorem pushes_of_none (hto : command.subprogramTo? = none) (hpushed : command.pushedList? = none)
    (list : ListId) : s.pushes command list = false := by
  rw [pushes, hto, hpushed]
  rfl

private theorem pushes_told (hto : command.subprogramTo? = some k)
    (hpushed : command.pushedList? = none) (hr : s.HasRecorder k r) :
    s.pushes command list = decide (r.list? = some list) := by
  rw [pushes, hto, hpushed, ← hr.list?_eq]
  simp

/-- The list of a recorder that adds a subprogram is longer by one, and other lists stay. -/
private theorem exists_list?_told {name linkageName : String} {line : Nat} {id : NodeId}
    {m : Module} (hto : command.subprogramTo? = some k) (hpushed : command.pushedList? = none)
    (hr : s.HasRecorder k r)
    (hadd : r.addSubprogram? name linkageName line s.module = some (id, r', m))
    (hids : s.module.graph.list? list = some ids) :
    ∃ ids', m.graph.list? list = some ids' ∧
      ids'.size = ids.size + (s.pushes command list).toNat := by
  rw [pushes_told hto hpushed hr, Recorder.list?_addSubprogram? hadd, hids]
  by_cases hlist : r.list? = some list
  · rw [if_pos hlist, decide_eq_true hlist]
    exact ⟨_, rfl, Array.size_push _⟩
  · rw [if_neg hlist, decide_eq_false hlist]
    exact ⟨ids, rfl, rfl⟩

private theorem exists_list?_edited {edit : Graph.Edit} {graph : Graph}
    (hedit : s.module.graph.perform edit = .ok (answer, graph))
    (hids : s.module.graph.list? list = some ids) :
    ∃ ids', graph.list? list = some ids' ∧
      ids'.size = ids.size + (s.pushes (.edit edit) list).toNat := by
  have hlt := Graph.lt_lists_size_of_list? hids
  cases Graph.performs_of_ok hedit with
  | @pushToList other _ node hother =>
      rw [Graph.list?_pushToList, hids]
      by_cases hlist : list = other
      · subst hlist
        rw [if_pos rfl]
        exact ⟨_, rfl, by simp [pushes, Command.subprogramTo?, Command.pushedList?]⟩
      · rw [if_neg hlist]
        exact ⟨ids, rfl, by simp [pushes, Command.subprogramTo?, Command.pushedList?,
          Ne.symm hlist]⟩
  | add node =>
      rw [pushes_of_none rfl rfl, Graph.list?, Graph.lists_add]
      exact ⟨ids, hids, rfl⟩
  | newList =>
      rw [pushes_of_none rfl rfl, Graph.list?_newList, if_neg (Nat.ne_of_lt hlt)]
      exact ⟨ids, hids, rfl⟩
  | addNamed name node =>
      rw [pushes_of_none rfl rfl]
      exact ⟨ids, hids, rfl⟩

/-- A command makes a list longer by one if it pushes to it, and leaves it as it is if not. -/
theorem Performs.exists_list? (h : s.Performs command answer s')
    (hids : s.module.graph.list? list = some ids) :
    ∃ ids', s'.module.graph.list? list = some ids' ∧
      ids'.size = ids.size + (s.pushes command list).toNat := by
  have hperform := h
  have hquiet (hto : command.subprogramTo? = none) (hpushed : command.pushedList? = none)
      (hkept : s'.module.graph.list? list = some ids) :
      ∃ ids', s'.module.graph.list? list = some ids' ∧
        ids'.size = ids.size + (s.pushes command list).toNat := by
    rw [pushes_of_none hto hpushed]
    exact ⟨ids, hkept, rfl⟩
  cases h with
  | edit edit hedit => exact exists_list?_edited hedit hids
  | attachToFunction key node hf => exact hquiet rfl rfl hids
  | attachToInstruction key node hi => exact hquiet rfl rfl hids
  | addFlag flag =>
      refine hquiet rfl rfl ?_
      rw [Graph.list?, Graph.lists_addFlag]
      exact hids
  | @markSubprogram n slot function name line r m event hslot hmark =>
      rcases Recorder.addSubprogram?_of_markSubprogram hmark with
        ⟨hr, hm⟩ | ⟨f, id, m₁, hf, hadd, hgraph⟩
      · rw [pushes_told rfl rfl ⟨slot, hslot, hr⟩]
        refine ⟨ids, ?_, rfl⟩
        rw [report, setRecorder, hm]
        exact hids
      · rw [report, setRecorder, hgraph]
        exact exists_list?_told rfl rfl (hasRecorder_of_slot hslot) hadd hids
  | addSubprogram name linkageName line hslot hexposed hadd =>
      exact exists_list?_told rfl rfl (hasRecorder_of_slot hslot) hadd hids
  | _ => exact hquiet rfl rfl (hperform.list?_of_not_tells rfl (by simp [TellsSubprogram]) hids)

/-! ## Sequences -/

theorem Performs.exists_told (h : s.Performs command answer s')
    (hto : command.subprogramTo? = some k) : ∃ r, s.HasRecorder k r := by
  cases h with
  | markSubprogram function name line hslot hmark =>
      cases hto
      exact ⟨_, hasRecorder_of_slot hslot⟩
  | addSubprogram name linkageName line hslot hexposed hadd =>
      cases hto
      exact ⟨_, hasRecorder_of_slot hslot⟩
  | _ => cases hto

theorem adds_of_none (hto : command.subprogramTo? = none) (hpushed : command.pushedList? = none) :
    s.adds ledger command n = false := by
  rw [adds, hto, hpushed]
  split <;> rfl

/-- The tally of a recorder that was there goes up with its sequence. -/
theorem getElem?_talliesAfter {tally : Nat} (h : tallies[n]? = some tally) (ledger : Ledger)
    (command : Command) :
    (s.talliesAfter ledger tallies command)[n]? =
      some (tally + (s.adds ledger command n).toNat) := by
  have hlt : n < tallies.size := (Array.getElem?_eq_some_iff.mp h).1
  have hpush (x : Nat) : (tallies.push x)[n]? = some tally := by
    rw [Array.getElem?_push_lt hlt, ← Array.getElem?_eq_getElem hlt, h]
  unfold talliesAfter
  split
  next =>
    rw [adds_of_none rfl rfl]
    exact hpush 0
  next =>
    rw [adds_of_none rfl rfl]
    exact hpush _
  next =>
    rw [Array.getElem?_mapIdx, h]
    cases s.adds ledger command n <;> rfl

theorem Performs.size_talliesAfter (h : s.Performs command answer s')
    (hsize : tallies.size = s.recorders.size) (ledger : Ledger) :
    (s.talliesAfter ledger tallies command).size = s'.recorders.size := by
  cases h with
  | createRecorder choice settings path hcreate =>
      exact (Array.size_push _).trans ((congrArg (· + 1) hsize).trans (Array.size_push _).symm)
  | clone hslot hexposed =>
      exact (Array.size_push _).trans ((congrArg (· + 1) hsize).trans (Array.size_push _).symm)
  | markSubprogram function name line hslot hmark =>
      exact Array.size_mapIdx.trans (hsize.trans (size_setRecorder _ _ _).symm)
  | markLocation line hslot hc hmark =>
      exact Array.size_mapIdx.trans (hsize.trans (size_setRecorder _ _ _).symm)
  | addSubprogram name linkageName line hslot hexposed hadd =>
      exact Array.size_mapIdx.trans (hsize.trans (size_setRecorder _ _ _).symm)
  | _ => exact Array.size_mapIdx.trans hsize

private theorem HasRecorder.setRecorder_cases {u : Recorder} (h : s'.HasRecorder n r')
    (hrecorders : s'.recorders = (s.setRecorder k u).recorders) (hr : s.HasRecorder n r) :
    (n = k ∧ r' = u) ∨ (n ≠ k ∧ r' = r) := by
  obtain ⟨slot, hslot, rfl⟩ := hr
  obtain ⟨slot', hslot', rfl⟩ := h
  rw [hrecorders] at hslot'
  by_cases hn : n = k
  · subst hn
    rw [getElem?_setRecorder_self hslot] at hslot'
    cases hslot'
    exact .inl ⟨rfl, rfl⟩
  · rw [getElem?_setRecorder_of_ne hn, hslot] at hslot'
    cases hslot'
    exact .inr ⟨hn, rfl⟩

private theorem HasRecorder.push {slot : RecorderSlot} (h : s'.HasRecorder n r')
    (hrecorders : s'.recorders = s.recorders.push slot) (hr : s.HasRecorder n r) : r' = r := by
  obtain ⟨slot', hslot', rfl⟩ := h
  rw [hrecorders, Array.getElem?_push_lt hr.lt] at hslot'
  exact hr.unique ⟨_, (Array.getElem?_eq_getElem hr.lt).trans hslot', rfl⟩ |>.symm

private theorem size_subprograms_told {name linkageName : String} {line : Nat} {id : NodeId}
    {m : Module} {t t' : TypedRecorder} (hto : command.subprogramTo? = some n)
    (hadd : (Recorder.typed t).addSubprogram? name linkageName line s.module =
      some (id, .typed t', m)) :
    t'.subprograms.size =
      t.subprograms.size + (decide (command.subprogramTo? = some n)).toNat := by
  rw [Recorder.addSubprogram?_typed] at hadd
  obtain ⟨-, hadded, -⟩ := Prod.mk.inj (Option.some.inj hadd) |>.imp_right Prod.mk.inj
  rw [← Recorder.typed.inj hadded, t.recorder_addSubprogram, decide_eq_true hto]
  exact Array.size_push _

/-- A typed recorder has a subprogram more if it is told of one. -/
theorem Performs.size_subprograms_typed (h : s.Performs command answer s') {t t' : TypedRecorder}
    (ht : s.HasRecorder n (.typed t)) (ht' : s'.HasRecorder n (.typed t')) :
    t'.subprograms.size =
      t.subprograms.size + (decide (command.subprogramTo? = some n)).toNat := by
  have hquiet (hto : command.subprogramTo? ≠ some n) (hkept : Recorder.typed t' = .typed t) :
      t'.subprograms.size =
        t.subprograms.size + (decide (command.subprogramTo? = some n)).toNat := by
    cases hkept
    rw [decide_eq_false hto]
    rfl
  cases h with
  | createRecorder choice settings path hcreate => exact hquiet nofun (ht'.push rfl ht)
  | clone hslot hexposed => exact hquiet nofun (ht'.push rfl ht)
  | markSubprogram function name line hslot hmark =>
      rcases ht'.setRecorder_cases rfl ht with ⟨rfl, rfl⟩ | ⟨hn, hkept⟩
      · rw [(hasRecorder_of_slot hslot).unique ht] at hmark
        rcases Recorder.addSubprogram?_of_markSubprogram hmark with
          ⟨hr, -⟩ | ⟨f, id, m₁, hf, hadd, hgraph⟩
        · cases hr
        · exact size_subprograms_told rfl hadd
      · exact hquiet (fun hto => hn (Option.some.inj hto).symm) hkept
  | markLocation line hslot hc hmark =>
      refine hquiet nofun ?_
      rcases ht'.setRecorder_cases rfl ht with ⟨rfl, rfl⟩ | ⟨hn, hkept⟩
      · rw [(hasRecorder_of_slot hslot).unique ht] at hmark
        rcases Recorder.markLocation_cases hmark with ⟨hr, -⟩ | ⟨u, scope, hr, -, hr', -⟩ |
          ⟨u, hr, -⟩ | ⟨u, scope, hr, -⟩
        · cases hr
        · rw [hr', hr]
        · cases hr
        · cases hr
      · exact hkept
  | addSubprogram name linkageName line hslot hexposed hadd =>
      rcases ht'.setRecorder_cases rfl ht with ⟨rfl, rfl⟩ | ⟨hn, hkept⟩
      · rw [(hasRecorder_of_slot hslot).unique ht] at hadd
        exact size_subprograms_told rfl hadd
      · exact hquiet (fun hto => hn (Option.some.inj hto).symm) hkept
  | _ => exact hquiet nofun (ht'.unique ht)

/-- The families of a session are those of its recorders, and the tallies tell how many
subprograms each recorder's sequence has. -/
structure Counts (s : Session) (ledger : Ledger) (tallies : Array Nat) : Prop where
  rooted : s.Rooted
  entries : ledger.entries.size = s.recorders.size
  bounded : ∀ n family, ledger.family? n = some family → family < s.recorders.size
  lists : TellsApart Recorder.list? s ledger
  size : tallies.size = s.recorders.size
  length : ∀ n r, s.HasRecorder n r →
    tallies[n]? = some (r.subprograms s.module.graph).length

namespace Counts

theorem start (workingDirectory : List UInt8) (name : String) :
    Counts (.start workingDirectory name) {} #[] where
  rooted := .start workingDirectory name
  entries := rfl
  bounded _ _ hfamily := by cases hfamily
  lists _ _ _ _ _ hr := by
    obtain ⟨slot, hslot, -⟩ := hr
    cases hslot
  size := rfl
  length _ _ hr := by
    obtain ⟨slot, hslot, -⟩ := hr
    cases hslot

/-- A command adds to the sequence of a tagged recorder if it pushes to its list. -/
theorem adds_tagged (h : s.Counts ledger tallies) (hperform : s.Performs command answer s')
    {t : TaggedRecorder} (ht : s.HasRecorder n (.tagged t)) :
    s.adds ledger command n = s.pushes command t.subprograms := by
  have hlist : s.list? n = some t.subprograms := ht.list?_eq
  have hpushed : (command.pushedList?.any fun list => decide (s.list? n = some list)) =
      decide (command.pushedList? = some t.subprograms) := by
    rw [hlist]
    cases command.pushedList? with
    | none => rfl
    | some list => simp [eq_comm]
  have htold : (command.subprogramTo?.any fun k =>
        decide (ledger.family? k = ledger.family? n)) =
      command.subprogramTo?.any fun k => decide (s.list? k = some t.subprograms) := by
    cases hto : command.subprogramTo? with
    | none => rfl
    | some k =>
        obtain ⟨r, hr⟩ := hperform.exists_told hto
        have hiff := h.lists n k _ r t.subprograms ht hr rfl
        rw [Option.any_some, Option.any_some, hr.list?_eq]
        exact decide_eq_decide.mpr hiff.symm
  rw [adds, ht.schema?_eq, Recorder.schema?]
  dsimp only
  rw [hpushed, htold, pushes]

/-- A sequence is longer by one after a command that adds a subprogram to it, and stays
otherwise. -/
theorem length_step (h : s.Counts ledger tallies) (hperform : s.Performs command answer s')
    (hr : s.HasRecorder n r) (hr' : s'.HasRecorder n r') :
    (r'.subprograms s'.module.graph).length =
      (r.subprograms s.module.graph).length + (s.adds ledger command n).toNat := by
  obtain ⟨r₁, hr₁, hleads, -⟩ := hperform.exists_leadsTo hr
  cases hr₁.unique hr'
  cases hleads with
  | off =>
      rw [adds, hr.schema?_eq]
      rfl
  | typed hleads =>
      rw [adds, hr.schema?_eq]
      exact hperform.size_subprograms_typed hr hr'
  | @tagged t t' hleads =>
      obtain ⟨ids, hids⟩ := (h.rooted.hasRecorder hr).exists_list rfl
      obtain ⟨ids', hids', hsize⟩ := hperform.exists_list? hids
      rw [h.adds_tagged hperform hr, Recorder.subprograms, Recorder.subprograms,
        hleads.subprograms, hids, hids', Option.getD_some, Option.getD_some, Array.length_toList,
        Array.length_toList, hsize]

/-- The sequence of a recorder that has just been created is empty. -/
private theorem subprograms_create {schema : Option Schema} {settings : Settings}
    {workingDirectory path : List UInt8} {m m' : Module} {event : Option Event}
    (hcreate : Recorder.create schema settings workingDirectory path m = .ok (r, m', event)) :
    r.subprograms m'.graph = [] := by
  have hlist {list : ListId} (h : r.list? = some list) : m'.graph.list? list = some #[] :=
    Recorder.list?_of_create hcreate h
  rcases Recorder.create_cases hcreate with
    ⟨-, rfl, -⟩ | ⟨source, -, -, rfl, -⟩ | ⟨source, -, -, hr, -⟩
  · rfl
  · simp only [Recorder.subprograms, TypedRecorder.create]
  · generalize (TaggedRecorder.create settings source m.graph).1 = t at hr
    subst hr
    rw [Recorder.subprograms, hlist rfl]
    rfl

theorem step (h : s.Counts ledger tallies) (hperform : s.Performs command answer s') :
    s'.Counts (s.ledgerAfter ledger command) (s.talliesAfter ledger tallies command) where
  rooted := h.rooted.step hperform
  entries := hperform.size_ledgerAfter h.entries
  bounded := hperform.bounded_ledgerAfter h.entries h.bounded
  lists := h.lists.step Recorder.isOwn_list? h.rooted h.entries h.bounded hperform
  size := hperform.size_talliesAfter h.size ledger
  length := by
    intro n r' hr'
    rcases hperform.leadsTo_cases hr' with ⟨r, hr, -, -⟩ | ⟨hn, k, rfl, hr⟩ |
      ⟨hn, choice, settings, path, event, rfl, hcreate⟩
    · rw [getElem?_talliesAfter (h.length n r hr), h.length_step hperform hr hr']
    · have hgraph : s'.module.graph = s.module.graph := by
        cases hperform
        rfl
      have htally : tallies.getD k 0 = (r'.subprograms s.module.graph).length := by
        rw [Array.getD_eq_getD_getElem?, h.length k r' hr, Option.getD_some]
      rw [hgraph, hn, ← h.size, talliesAfter, Array.getElem?_push_size, htally]
    · rw [hn, ← h.size, talliesAfter, Array.getElem?_push_size, subprograms_create hcreate]
      rfl

end Counts

end Session

end DebugMetadata

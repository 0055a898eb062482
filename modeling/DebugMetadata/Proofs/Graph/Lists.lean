import DebugMetadata.Proofs.Graph.Sharing
import DebugMetadata.Proofs.Keyed

/-!
# How the lists of a graph are filled

The edits that were performed tell what every list of a graph holds.  A named list holds what
was added under its name, and the named lists stand in the order in which their names were
first used.  A growable list holds what was pushed to its handle since it was made.
-/

namespace DebugMetadata.Graph

/-- The node that an edit adds to a named list, with the name. -/
def Edit.addition? : Edit → Option (String × NodeId)
  | .addNamed name node => some (name, node)
  | _ => none

/-- The node that an edit pushes to a growable list, with the list. -/
def Edit.push? : Edit → Option (ListId × NodeId)
  | .pushToList list node => some (list, node)
  | _ => none

/-- Edits that were performed, in order, each with its answer. -/
abbrev EditLog := List (Edit × Answer)

namespace EditLog

/-- The edits that were answered, up to the first that failed. -/
def ofRun (edits : List Edit) (answers : List (Except Fault Answer)) : EditLog :=
  (edits.zip answers).filterMap fun done => done.2.toOption.map (done.1, ·)

def edits (log : EditLog) : List Edit := log.map Prod.fst

def additions (log : EditLog) : List (String × NodeId) := log.filterMap (·.1.addition?)

def pushes (log : EditLog) : List (ListId × NodeId) := log.filterMap (·.1.push?)

/-- The names that something was added under, as often as it was. -/
def names (log : EditLog) : List String := log.additions.map Prod.fst

/-- The growable list was made, and these nodes have been pushed to it since. -/
def Fills (log : EditLog) (list : ListId) (nodes : List NodeId) : Prop :=
  ∃ before after : EditLog, log = before ++ (.newList, .list list) :: after ∧
    nodes = valuesAt list after.pushes

variable {log : EditLog} {done : Edit × Answer} {list : ListId} {nodes : List NodeId}

theorem ofRun_error (edit : Edit) (rest : List Edit) (fault : Fault) :
    ofRun (edit :: rest) [.error fault] = [] := by
  simp [ofRun, Except.toOption]

theorem additions_concat (log : EditLog) (done : Edit × Answer) :
    additions (log ++ [done]) = log.additions ++ done.1.addition?.toList :=
  filterMap_concat _ log done

theorem pushes_concat (log : EditLog) (done : Edit × Answer) :
    pushes (log ++ [done]) = log.pushes ++ done.1.push?.toList :=
  filterMap_concat _ log done

/-- One more edit makes the list, or adds what it pushes to what was pushed before. -/
theorem fills_concat_iff :
    Fills (log ++ [done]) list nodes ↔ (done = (.newList, .list list) ∧ nodes = []) ∨
      ∃ old, log.Fills list old ∧ nodes = old ++ valuesAt list done.1.push?.toList := by
  constructor
  · rintro ⟨before, after, hlog, rfl⟩
    rcases List.eq_nil_or_concat after with rfl | ⟨after, last, rfl⟩
    · obtain ⟨-, hlast⟩ := List.append_inj' hlog rfl
      exact .inl ⟨List.singleton_inj.mp hlast, rfl⟩
    · rw [List.concat_eq_append] at hlog ⊢
      rw [← List.cons_append, ← List.append_assoc] at hlog
      obtain ⟨hbefore, hlast⟩ := List.append_inj' hlog rfl
      cases List.singleton_inj.mp hlast
      refine .inr ⟨_, ⟨before, after, hbefore, rfl⟩, ?_⟩
      rw [pushes_concat, valuesAt_append]
  · rintro (⟨rfl, rfl⟩ | ⟨old, ⟨before, after, rfl, rfl⟩, rfl⟩)
    · exact ⟨log, [], rfl, rfl⟩
    · refine ⟨before, after ++ [done], ?_, ?_⟩
      · rw [List.append_assoc, List.cons_append]
      · rw [pushes_concat, valuesAt_append]

/-- An edit that makes no growable list and pushes to none changes none. -/
theorem fills_concat_iff_of_none (hnew : done.1 ≠ .newList) (hpush : done.1.push? = none) :
    Fills (log ++ [done]) list nodes ↔ log.Fills list nodes := by
  rw [fills_concat_iff, hpush, or_iff_right fun h => hnew (congrArg Prod.fst h.1)]
  constructor
  · rintro ⟨old, hold, rfl⟩
    rw [Option.toList_none, valuesAt, List.filterMap_nil, List.append_nil]
    exact hold
  · intro h
    exact ⟨nodes, h, (List.append_nil nodes).symm⟩

end EditLog

/-! ## Single edits -/

variable {g g' : Graph} {edit : Edit} {edits : List Edit} {answer : Answer} {log : EditLog}

/-- An edit that adds to no named list leaves all of them as they are. -/
theorem named_perform (h : g.perform edit = .ok (answer, g')) (hedit : edit.addition? = none) :
    g'.named = g.named := by
  cases performs_of_ok h with
  | add node => exact g.named_add node
  | newList | pushToList => rfl
  | addNamed name node => cases hedit

/-- An edit that adds nothing under a name leaves what is found under the name. -/
theorem Indexed.namedNodes_perform (hg : g.Indexed) (h : g.perform edit = .ok (answer, g'))
    {name : String} (hedit : ∀ node, edit ≠ .addNamed name node) :
    g'.namedNodes name = g.namedNodes name := by
  cases hadds : edit.addition? with
  | none => rw [namedNodes, named_perform h hadds, namedNodes]
  | some addition =>
      cases performs_of_ok h with
      | addNamed other node =>
          rw [hg.namedNodes_addNamed, if_neg]
          rintro rfl
          exact hedit node rfl
      | _ => cases hadds

/-- An edit that pushes nothing to a growable list leaves what the list holds. -/
theorem list?_perform (h : g.perform edit = .ok (answer, g')) {list : ListId}
    {nodes : Array NodeId} (hlist : g.list? list = some nodes)
    (hedit : ∀ node, edit ≠ .pushToList list node) : g'.list? list = some nodes := by
  cases performs_of_ok h with
  | add node =>
      rw [list?, lists_add]
      exact hlist
  | newList =>
      rw [list?_newList, if_neg (Nat.ne_of_lt (lt_lists_size_of_list? hlist))]
      exact hlist
  | @pushToList other _ node hother =>
      rw [list?_pushToList, if_neg]
      · exact hlist
      · rintro rfl
        exact hedit node rfl
  | addNamed name node => exact hlist

/-! ## Runs -/

/-- The list of what was added under a name, if anything was. -/
def listed? (nodes : List NodeId) : Option (Array NodeId) :=
  if nodes = [] then none else some nodes.toArray

/-- The lists of the graph hold what the log tells, and nothing else. -/
structure Holds (g : Graph) (log : EditLog) : Prop where
  indexed : g.Indexed
  named : g.named.toKeyed.Shows listed? log.additions
  lists : ∀ list nodes, (g.list? list).map Array.toList = some nodes ↔ log.Fills list nodes

theorem listed?_concat (nodes : List NodeId) (node : NodeId) :
    listed? (nodes ++ [node]) = some (((listed? nodes).getD #[]).push node) := by
  rw [listed?, if_neg (List.append_ne_nil_of_right_ne_nil nodes (List.cons_ne_nil node [])),
    listed?]
  split
  next hnil =>
    rw [hnil]
    rfl
  next => rw [Option.getD_some, List.push_toArray]

theorem getD_listed? (nodes : List NodeId) : (listed? nodes).getD #[] = nodes.toArray := by
  rw [listed?]
  split
  next hnil => rw [hnil, Option.getD_none]
  next => rfl

namespace Holds

theorem empty : (∅ : Graph).Holds [] where
  indexed := indexed_empty
  named := .empty rfl
  lists := by
    rintro ⟨n⟩ nodes
    refine iff_of_false nofun ?_
    rintro ⟨before, after, hlog, -⟩
    exact List.append_ne_nil_of_right_ne_nil before (List.cons_ne_nil _ _) hlog.symm

private theorem named_step (h : g.Holds log) (hperform : g.perform edit = .ok (answer, g')) :
    g'.named.toKeyed.Shows listed? (EditLog.additions (log ++ [(edit, answer)])) := by
  rw [EditLog.additions_concat]
  cases hedit : edit.addition? with
  | none =>
      rw [named_perform hperform hedit, Option.toList_none, List.append_nil]
      exact h.named
  | some addition =>
      cases performs_of_ok hperform with
      | addNamed name node =>
          cases hedit
          rw [addNamed, h.indexed.named.toKeyed_add]
          exact h.named.alter fun nodes => listed?_concat nodes node
      | _ => cases hedit

/-- A list that is made has a fresh handle: no edit of the log made it before. -/
private theorem lists_step_newList (h : g.Holds log) (list : ListId) (nodes : List NodeId) :
    (g.newList.2.list? list).map Array.toList = some nodes ↔
      EditLog.Fills (log ++ [(.newList, .list ⟨g.lists.size⟩)]) list nodes := by
  have hold : (∃ old, log.Fills list old ∧
      nodes = old ++ valuesAt list (Edit.push? .newList).toList) ↔ log.Fills list nodes := by
    simp [Edit.push?, valuesAt]
  rw [EditLog.fills_concat_iff, list?_newList, hold, ← h.lists]
  obtain ⟨n⟩ := list
  by_cases hn : n = g.lists.size
  · subst hn
    have hfresh : g.list? ⟨g.lists.size⟩ = none := Array.getElem?_eq_none (Nat.le_refl _)
    simp [hfresh, eq_comm]
  · simp [hn, Ne.symm hn]

private theorem lists_step_pushToList (h : g.Holds log) {other : ListId} {ids : Array NodeId}
    (node : NodeId) (hother : g.list? other = some ids) (list : ListId) (nodes : List NodeId) :
    ((g.pushToList other node).list? list).map Array.toList = some nodes ↔
      EditLog.Fills (log ++ [(.pushToList other node, .done)]) list nodes := by
  have hpush : ((.pushToList other node, .done) : Edit × Answer) ≠ (.newList, .list list) :=
    fun heq => nomatch congrArg Prod.fst heq
  have hvalues : valuesAt list (Edit.push? (.pushToList other node)).toList =
      if other = list then [node] else [] :=
    valuesAt_concat list other [] node
  rw [EditLog.fills_concat_iff, or_iff_right fun hnew => hpush hnew.1, hvalues,
    list?_pushToList]
  simp only [← h.lists]
  by_cases hlist : list = other
  · subst hlist
    simp [hother, eq_comm]
  · simp [hlist, Ne.symm hlist]

private theorem lists_step (h : g.Holds log) (hperform : g.perform edit = .ok (answer, g'))
    (list : ListId) (nodes : List NodeId) :
    (g'.list? list).map Array.toList = some nodes ↔
      EditLog.Fills (log ++ [(edit, answer)]) list nodes := by
  cases performs_of_ok hperform with
  | add node =>
      rw [EditLog.fills_concat_iff_of_none (by simp) rfl, ← h.lists, list?, lists_add, list?]
  | addNamed name node =>
      rw [EditLog.fills_concat_iff_of_none (by simp) rfl, ← h.lists]
      rfl
  | newList => exact h.lists_step_newList list nodes
  | pushToList node hother => exact h.lists_step_pushToList node hother list nodes

theorem step (h : g.Holds log) (hperform : g.perform edit = .ok (answer, g')) :
    g'.Holds (log ++ [(edit, answer)]) :=
  ⟨(grows_perform hperform).indexed h.indexed, h.named_step hperform, h.lists_step hperform⟩

theorem run (edits : List Edit) : ∀ {g : Graph} {log : EditLog}, g.Holds log →
    (g.run edits).2.Holds (log ++ EditLog.ofRun edits (g.run edits).1) := by
  induction edits with
  | nil =>
      intro g log h
      exact (List.append_nil log).symm ▸ h
  | cons edit rest ih =>
      intro g log h
      rw [Graph.run]
      cases hperform : g.perform edit with
      | ok done =>
          obtain ⟨answer, g'⟩ := done
          have hrest := ih (h.step hperform)
          rw [List.append_assoc] at hrest
          exact hrest
      | error fault =>
          dsimp only
          rw [EditLog.ofRun_error, List.append_nil]
          exact h

theorem namedNodes_eq (h : g.Holds log) (name : String) :
    g.namedNodes name = (valuesAt name log.additions).toArray := by
  rw [namedNodes, h.indexed.named.find?_eq, h.named.find?, getD_listed?]

theorem namedNodes_eq_empty_iff (h : g.Holds log) {name : String} :
    g.namedNodes name = #[] ↔ name ∉ log.names := by
  rw [h.namedNodes_eq, List.toArray_eq_iff, valuesAt_eq_nil_iff, EditLog.names]

/-- Going through the named lists and asking for them by name tell the same. -/
theorem entries_named (h : g.Holds log) :
    g.named.entries = log.names.eraseDups.map fun name => (name, g.namedNodes name) := by
  have hlisted : ∀ name ∈ log.names.eraseDups,
      (listed? (valuesAt name log.additions)).map (name, ·) = some (name, g.namedNodes name) := by
    intro name hname
    have hne : valuesAt name log.additions ≠ [] := fun hnil =>
      valuesAt_eq_nil_iff.mp hnil (List.mem_eraseDups.mp hname)
    rw [listed?, if_neg hne, h.namedNodes_eq, Option.map_some]
  refine h.named.entries.trans ?_
  exact (List.filterMap_congr hlisted).trans (congrFun List.filterMap_eq_map _)

/-- Only names that were used are there, so none of the named lists is empty. -/
theorem ne_empty_of_mem (h : g.Holds log) {entry : String × Array NodeId}
    (hentry : entry ∈ g.named.entries) : entry.2 ≠ #[] := by
  rw [h.entries_named] at hentry
  obtain ⟨name, hname, rfl⟩ := List.mem_map.mp hentry
  intro hempty
  exact h.namedNodes_eq_empty_iff.mp hempty (List.mem_eraseDups.mp hname)

/-- The index tells where the list stands that is found by the name. -/
theorem places_iff (h : g.Holds log) (name : String) (n : Nat) :
    g.named.places[name]? = some n ↔ g.named.entries[n]? = some (name, g.namedNodes name) := by
  rw [h.indexed.named name n, NamedLists.keys, List.getElem?_map, Option.map_eq_some_iff]
  constructor
  · rintro ⟨entry, hentry, rfl⟩
    have hmem := List.mem_of_getElem? hentry
    rw [h.entries_named] at hmem
    obtain ⟨name, -, rfl⟩ := List.mem_map.mp hmem
    exact hentry
  · exact fun hentry => ⟨_, hentry, rfl⟩

end Holds

/-- A run goes through its edits up to the first push to a list that does not exist. -/
theorem edits_ofRun (edits : List Edit) : ∀ g : Graph,
    (EditLog.ofRun edits (g.run edits).1).edits = edits ∨
    ∃ list node rest,
      edits = (EditLog.ofRun edits (g.run edits).1).edits ++ .pushToList list node :: rest ∧
      (g.run edits).2.list? list = none := by
  induction edits with
  | nil => exact fun _ => .inl rfl
  | cons edit rest ih =>
      intro g
      rw [Graph.run]
      cases hperform : g.perform edit with
      | ok done =>
          obtain ⟨answer, g'⟩ := done
          rcases ih g' with hall | ⟨list, node, rest', hrest, hnone⟩
          · exact .inl (congrArg (edit :: ·) hall)
          · exact .inr ⟨list, node, rest', congrArg (edit :: ·) hrest, hnone⟩
      | error fault =>
          obtain ⟨-, list, node, rfl, hnone⟩ := perform_error_cases hperform
          refine .inr ⟨list, node, rest, ?_, hnone⟩
          dsimp only
          rw [EditLog.ofRun_error]
          rfl

/-- Whatever edits an empty graph has gone through, its lists hold what those that were
performed put there, and no edit touches a list that it does not name.  The named lists are
those of the names that were used, each once, in the order of their first use and with at
least one node.  The index tells the place of each of them and of no other, so that going
through them, where a name stands, and asking for the name, by the index, tell the same. -/
theorem lists_hold_what_edits_put (edits : List Edit) :
    let g := ((∅ : Graph).run edits).2
    let log := EditLog.ofRun edits ((∅ : Graph).run edits).1
    (log.edits = edits ∨ ∃ list node rest,
      edits = log.edits ++ .pushToList list node :: rest ∧ g.list? list = none) ∧
    (∀ name, (g.namedNodes name).toList = valuesAt name log.additions) ∧
    (∀ name, g.namedNodes name = #[] ↔ name ∉ log.names) ∧
    g.named.entries = log.names.eraseDups.map (fun name => (name, g.namedNodes name)) ∧
    g.named.keys.Nodup ∧
    (∀ entry ∈ g.named.entries, entry.2 ≠ #[]) ∧
    (∀ name n, g.named.places[name]? = some n ↔
      g.named.entries[n]? = some (name, g.namedNodes name)) ∧
    (∀ list nodes, (g.list? list).map Array.toList = some nodes ↔ log.Fills list nodes) ∧
    ∀ edit answer g', g.perform edit = .ok (answer, g') →
      (edit.addition? = none → g'.named = g.named) ∧
      (∀ name, (∀ node, edit ≠ .addNamed name node) → g'.namedNodes name = g.namedNodes name) ∧
      ∀ list nodes, g.list? list = some nodes → (∀ node, edit ≠ .pushToList list node) →
        g'.list? list = some nodes := by
  intro g log
  have h : g.Holds log := by
    have hrun := Holds.empty.run edits
    rwa [List.nil_append] at hrun
  refine ⟨edits_ofRun edits ∅, fun name => congrArg Array.toList (h.namedNodes_eq name),
    fun _ => h.namedNodes_eq_empty_iff, h.entries_named, h.indexed.named.nodup,
    fun _ => h.ne_empty_of_mem, h.places_iff, h.lists, ?_⟩
  intro edit answer g' hperform
  exact ⟨named_perform hperform, fun _ => h.indexed.namedNodes_perform hperform,
    fun _ _ => list?_perform hperform⟩

end DebugMetadata.Graph

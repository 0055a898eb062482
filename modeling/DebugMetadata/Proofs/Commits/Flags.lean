import DebugMetadata.Proofs.Graph.Search
import DebugMetadata.Proofs.Lists

/-!
# The flags of a graph

A flag is known by the handle of its tuple, and equal tuples have one handle.  So the list
of flags has every flag that was asked for once, in the order in which they were first
asked for, whatever else is added to the graph in between.
-/

namespace DebugMetadata

theorem eraseDups_of_forall_eq {α : Type} [DecidableEq α] {xs : List α} {x : α}
    (h : ∀ y ∈ xs, y = x) : xs.eraseDups = [] ∨ xs.eraseDups = [x] := by
  cases xs with
  | nil => exact .inl rfl
  | cons y ys =>
      have hrest : ys.filter (fun z => !z == y) = [] := by
        rw [List.filter_eq_nil_iff]
        intro z hz
        rw [h z (List.mem_cons_of_mem y hz), h y List.mem_cons_self]
        simp
      rw [List.eraseDups_cons, hrest, h y List.mem_cons_self]
      exact .inr rfl

theorem FlagBehavior.code_inj {a b : FlagBehavior} (h : a.code = b.code) : a = b := by
  cases a <;> cases b <;> first | rfl | cases h

/-- The tuple of a flag tells the flag. -/
theorem ModuleFlag.operands_inj {flag flag' : ModuleFlag} (h : flag.operands = flag'.operands) :
    flag = flag' := by
  obtain ⟨behavior, key, value⟩ := flag
  obtain ⟨behavior', key', value'⟩ := flag'
  simp only [operands, Operand.i32, List.cons.injEq, Operand.int.injEq, Operand.str.injEq,
    true_and, and_true] at h
  obtain ⟨hcode, hkey, hvalue⟩ := h
  rw [FlagBehavior.code_inj hcode, hkey, hvalue]

namespace Graph

variable {g g' : Graph} {flags : List ModuleFlag} {flag : ModuleFlag} {id : NodeId}

/-- The list of flags holds those that were asked for, each once and in the order in which
they were first asked for. -/
structure HoldsFlags (g : Graph) (flags : List ModuleFlag) : Prop where
  nodup : (g.namedNodes ModuleFlag.listName).toList.Nodup
  nodes : (g.namedNodes ModuleFlag.listName).toList.map g.node? =
    flags.eraseDups.map fun flag => some (.tuple flag.operands)

namespace HoldsFlags

theorem empty : (∅ : Graph).HoldsFlags [] := by
  constructor <;> rw [namedNodes_empty]
  · exact .nil
  · rfl

/-- Every handle of the list is one of a flag that was asked for. -/
theorem exists_flag (h : g.HoldsFlags flags) (hid : id ∈ g.namedNodes ModuleFlag.listName) :
    ∃ flag ∈ flags, g.node? id = some (.tuple flag.operands) := by
  have hnode : g.node? id ∈ (g.namedNodes ModuleFlag.listName).toList.map g.node? :=
    List.mem_map_of_mem (Array.mem_toList_iff.mpr hid)
  rw [h.nodes] at hnode
  obtain ⟨flag, hflag, hnode⟩ := List.mem_map.mp hnode
  exact ⟨flag, List.mem_eraseDups.mp hflag, hnode.symm⟩

theorem mono (h : g.HoldsFlags flags) (hextends : g.Extends g')
    (hnamed : g'.namedNodes ModuleFlag.listName = g.namedNodes ModuleFlag.listName) :
    g'.HoldsFlags flags := by
  have hnodes : (g.namedNodes ModuleFlag.listName).toList.map g'.node? =
      (g.namedNodes ModuleFlag.listName).toList.map g.node? := by
    apply List.map_congr_left
    intro id hid
    obtain ⟨flag, -, hnode⟩ := h.exists_flag (Array.mem_toList_iff.mp hid)
    rw [hnode, hextends.node? hnode]
  refine ⟨?_, ?_⟩
  · rw [hnamed]
    exact h.nodup
  · rw [hnamed, hnodes]
    exact h.nodes

/-- A flag was asked for exactly if the list holds the handle of its tuple. -/
theorem mem_iff (h : g.HoldsFlags flags) (hg : g.Indexed)
    (hid : g.node? id = some (.tuple flag.operands)) :
    id ∈ g.namedNodes ModuleFlag.listName ↔ flag ∈ flags := by
  constructor
  · intro hmem
    obtain ⟨flag', hflag', hnode⟩ := h.exists_flag hmem
    rw [hid, Option.some.injEq, Node.tuple.injEq] at hnode
    rw [ModuleFlag.operands_inj hnode]
    exact hflag'
  · intro hmem
    have hnode : some (.tuple flag.operands) ∈
        (g.namedNodes ModuleFlag.listName).toList.map g.node? := by
      rw [h.nodes]
      exact List.mem_map_of_mem (List.mem_eraseDups.mpr hmem)
    obtain ⟨id', hid', hnode⟩ := List.mem_map.mp hnode
    rw [hg.eq_of_node? rfl hid hnode]
    exact Array.mem_toList_iff.mp hid'

/-- A flag that was asked for before is not added again, and another one comes last. -/
theorem addFlag (h : g.HoldsFlags flags) (hg : g.Indexed) (flag : ModuleFlag) :
    (g.addFlag flag).2.HoldsFlags (flags ++ [flag]) := by
  have hadd : (g.add (.tuple flag.operands)).2.HoldsFlags flags :=
    h.mono (g.extends_add _) (g.namedNodes_add _ _)
  have hindexed := hg.add (.tuple flag.operands)
  have hnode : (g.add (.tuple flag.operands)).2.node? (g.add (.tuple flag.operands)).1 =
      some (.tuple flag.operands) := hg.node?_add _
  have hmem := hadd.mem_iff hindexed hnode
  rw [addFlag_eq]
  by_cases hflag : flag ∈ flags
  · rw [if_pos (Array.contains_iff_mem.mpr (hmem.mpr hflag))]
    refine ⟨hadd.nodup, ?_⟩
    rw [eraseDups_concat, if_pos hflag]
    exact hadd.nodes
  · have hnew : (g.add (.tuple flag.operands)).1 ∉
        (g.add (.tuple flag.operands)).2.namedNodes ModuleFlag.listName := mt hmem.mp hflag
    rw [if_neg (mt Array.contains_iff_mem.mp hnew)]
    refine ⟨?_, ?_⟩
    · rw [hindexed.namedNodes_addNamed, if_pos rfl, Array.toList_push]
      refine List.nodup_append.mpr ⟨hadd.nodup, List.pairwise_singleton _ _, ?_⟩
      intro id hid other hother hsame
      rw [hsame, List.mem_singleton.mp hother] at hid
      exact hnew (Array.mem_toList_iff.mp hid)
    · rw [hindexed.namedNodes_addNamed, if_pos rfl, Array.toList_push, eraseDups_concat, if_neg hflag,
        List.map_append, List.map_append, ← hadd.nodes, List.map_singleton, List.map_singleton,
        ← hnode]
      rfl

end HoldsFlags

end Graph

end DebugMetadata

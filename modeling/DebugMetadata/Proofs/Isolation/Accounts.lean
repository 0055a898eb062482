import DebugMetadata.Proofs.Isolation.Families
import DebugMetadata.Proofs.Isolation.LeftOut

/-!
# Recorders do not disturb each other

What a recorder has recorded, read by following every handle, is what it would have
recorded if some other recorder and the clones of that one had not been there.  This
holds even if both are of the same source file and so share nodes.
-/

namespace DebugMetadata

variable {R : NodeId → NodeId → Prop} {L : ListId → ListId → Prop}

theorem map_eq_map_of_rel {α : Type} {f f' : NodeId → α} {o o' : Option NodeId}
    (h : Option.Rel R o o') (hf : ∀ id id', R id id' → f id = f' id') : o.map f = o'.map f' := by
  cases h with
  | none => rfl
  | some h => exact congrArg some (hf _ _ h)

/-! ## Recorders that differ in handles -/

namespace Recorder.Alike

variable {r r' : Recorder} {g g' : Graph}

theorem rel_unit? (h : r.Alike R L r') : Option.Rel R r.unit? r'.unit? := by
  cases h with
  | off => exact .none
  | typed h => exact .some h.unit
  | tagged h => exact .some h.unit

theorem rel_active? (h : r.Alike R L r') : Option.Rel R r.active? r'.active? := by
  cases h with
  | off => exact .none
  | typed h => exact h.active
  | tagged h => exact h.active

theorem lastLine?_eq (h : r.Alike R L r') : r'.lastLine? = r.lastLine? := by
  cases h with
  | off => rfl
  | typed h => rfl
  | tagged h => exact h.lastLine

theorem forall₂_subprograms (h : r.Alike R L r') (hg : g.Alike R L g') :
    List.Forall₂ R (r.subprograms g) (r'.subprograms g') := by
  cases h with
  | off => exact .nil
  | typed h => exact h.subprograms
  | tagged h =>
      obtain ⟨ids, ids', hids, hids', hnodes⟩ := hg.lists h.subprograms
      simp only [subprograms, hids, hids', Option.getD_some]
      exact hnodes

end Recorder.Alike

namespace Session

variable {p s s' : Session} {ledger ledger' : Ledger} {root n : Nat} {command : Command}
  {answer : Answer}

/-! ## Accounts -/

theorem leaveOut_cons (h : s.perform command = .ok (answer, s')) (root : Nat) (ledger : Ledger)
    (rest : List Command) :
    s.leaveOut root ledger (command :: rest) =
      (if ledger.concerns root command then [] else [command.renumber (ledger.place root)]) ++
        s'.leaveOut root (s.ledgerAfter ledger command) rest := by
  rw [leaveOut, h]

theorem account?_eq_some {slot : RecorderSlot} {entry : LedgerEntry}
    (hslot : s.recorders[n]? = some slot) (hentry : ledger.entries[n]? = some entry)
    (depth : Nat) :
    s.account? ledger depth n = some
      { unit := slot.recorder.unit?.map (s.module.graph.unfold depth)
        subprograms :=
          (slot.recorder.subprograms s.module.graph).map (s.module.graph.unfold depth)
        locations := entry.locations.map (s.module.graph.unfold depth)
        active := slot.recorder.active?.map (s.module.graph.unfold depth)
        lastLine := slot.recorder.lastLine? } := by
  rw [account?, hslot, hentry]
  rfl

/-- A recorder that is not left out has the same account in both sessions. -/
theorem LeavesOut.exists_account (h : LeavesOut root R L p ledger s ledger')
    (hlt : n < s.recorders.size) (hfamily : ledger'.family? n ≠ some root) (depth : Nat) :
    ∃ account, s.account? ledger' depth n = some account ∧
      p.account? ledger depth (ledger'.place root n) = some account := by
  have hslot' := Array.getElem?_eq_getElem hlt
  generalize s.recorders[n] = slot' at hslot'
  obtain ⟨entry', hentry'⟩ := h.recorders.exists_entry hslot'
  have hother : entry'.family ≠ root := by
    rw [Ledger.family?, hentry', Option.map_some, ne_eq, Option.some.injEq] at hfamily
    exact hfamily
  obtain ⟨slot, entry, hslot, hentry, halike⟩ := h.recorders.kept hslot' hentry' hother
  have hunfold := h.module.graph.unfold_eq depth
  have hunit : slot.recorder.unit?.map (p.module.graph.unfold depth) =
      slot'.recorder.unit?.map (s.module.graph.unfold depth) :=
    map_eq_map_of_rel halike.recorder.rel_unit? hunfold
  have hsubprograms :
      (slot.recorder.subprograms p.module.graph).map (p.module.graph.unfold depth) =
        (slot'.recorder.subprograms s.module.graph).map (s.module.graph.unfold depth) :=
    map_eq_map_of_forall₂ (halike.recorder.forall₂_subprograms h.module.graph) hunfold
  have hlocations : entry.locations.map (p.module.graph.unfold depth) =
      entry'.locations.map (s.module.graph.unfold depth) :=
    map_eq_map_of_forall₂ halike.locations hunfold
  have hactive : slot.recorder.active?.map (p.module.graph.unfold depth) =
      slot'.recorder.active?.map (s.module.graph.unfold depth) :=
    map_eq_map_of_rel halike.recorder.rel_active? hunfold
  refine ⟨_, account?_eq_some hslot' hentry' depth, ?_⟩
  rw [account?_eq_some hslot hentry, hunit, hsubprograms, hlocations, hactive,
    halike.recorder.lastLine?_eq]

/-- Wherever such commands have led: if what concerns a family of recorders is left out,
every other recorder has the same account.  Recorders of different families have
different units and, if they are tagged, different lists.  The list of a tagged recorder
holds what its family has registered, in order. -/
theorem accounts_unaffected (workingDirectory : List UInt8) (name : String)
    (commands : List Command) (hcommands : ∀ command ∈ commands, command.leavesMetadata = true)
    (root : Nat) (hrun : ((Session.start workingDirectory name).run commands).2 = s)
    (hledger' : (Session.start workingDirectory name).follow ledgerAfter {} commands = ledger')
    {kept : List Command}
    (hkept : (Session.start workingDirectory name).leaveOut root {} commands = kept)
    (hpart : ((Session.start workingDirectory name).run kept).2 = p)
    (hledger : (Session.start workingDirectory name).follow ledgerAfter {} kept = ledger) :
    (∀ n < s.recorders.size, ledger'.family? n ≠ some root → ∀ depth, ∃ account,
      s.account? ledger' depth n = some account ∧
      p.account? ledger depth (ledger'.place root n) = some account) ∧
    (∀ n n' r r', s.HasRecorder n r → s.HasRecorder n' r' →
      ledger'.family? n ≠ ledger'.family? n' →
      (∀ id, r.unit? = some id → r'.unit? ≠ some id) ∧
      ∀ list, r.list? = some list → r'.list? ≠ some list) ∧
    ∀ n t family, s.HasRecorder n (.tagged t) → ledger'.family? n = some family → ∃ ids,
      s.module.graph.list? t.subprograms = some ids ∧ ids.toList = ledger'.registered family := by
  subst hrun hledger' hkept hpart hledger
  obtain ⟨R, L, hleft⟩ := (leavesOut_start root workingDirectory name).run
    (.start workingDirectory name) hcommands
  have hapart := Apart.run hcommands workingDirectory name
  refine ⟨fun n hlt hfamily => hleft.exists_account hlt hfamily, ?_, ?_⟩
  · intro n n' r r' hr hr' hne
    refine ⟨fun id hid hid' => ?_, fun list hlist hlist' => ?_⟩
    · exact hne ((hapart.units n n' r r' id hr hr' hid).mp hid').symm
    · exact hne ((hapart.lists n n' r r' list hr hr' hlist).mp hlist').symm
  · exact fun n t family ht => hapart.content n (.tagged t) t.subprograms family ht rfl

private theorem exists_tagged_of_list?
    (h : (s.recorders[n]?.bind (·.recorder.list?)).isSome = true) :
    ∃ t, s.HasRecorder n (.tagged t) := by
  obtain ⟨list, hlist⟩ := Option.isSome_iff_exists.mp h
  obtain ⟨slot, hslot, hlist⟩ := Option.bind_eq_some_iff.mp hlist
  cases hr : slot.recorder with
  | tagged t => exact ⟨t, slot, hslot, hr⟩
  | off => cases (congrArg Recorder.list? hr).symm.trans hlist
  | typed t => cases (congrArg Recorder.list? hr).symm.trans hlist

/-- Two tagged recorders of one file register the same function and mark lines in it, in
turns. -/
def turnsRun : List Command :=
  [.addFunction "main" ⟨.void, []⟩, .appendBlock ⟨0⟩ "entry", .openCursor ⟨0⟩,
    .createRecorder (.fixed .legacy) {} [0x2F, 0x61],
    .createRecorder (.fixed .legacy) {} [0x2F, 0x61],
    .recorder 0 (.markSubprogram ⟨0⟩ "main" 1), .recorder 1 (.markSubprogram ⟨0⟩ "main" 1),
    .recorder 0 (.markLocation 0 2), .recorder 1 (.addLocation 2),
    .recorder 1 (.markLocation 0 3)]

/-- The same without the first recorder. -/
def lonelyRun : List Command :=
  [.addFunction "main" ⟨.void, []⟩, .appendBlock ⟨0⟩ "entry", .openCursor ⟨0⟩,
    .createRecorder (.fixed .legacy) {} [0x2F, 0x61], .recorder 0 (.markSubprogram ⟨0⟩ "main" 1),
    .recorder 0 (.addLocation 2), .recorder 0 (.markLocation 0 3)]

/-- The second recorder has the account that it would have alone, and the two recorders
share neither the unit nor the list. -/
theorem accounts_unaffected_by_turns :
    (∀ command ∈ turnsRun, command.leavesMetadata = true) ∧
    (Session.start [] "m").leaveOut 0 {} turnsRun = lonelyRun ∧
    ∃ s p ledger ledger' t t',
      ((Session.start [] "m").run turnsRun).2 = s ∧
      (Session.start [] "m").follow ledgerAfter {} turnsRun = ledger' ∧
      ((Session.start [] "m").run lonelyRun).2 = p ∧
      (Session.start [] "m").follow ledgerAfter {} lonelyRun = ledger ∧
      s.HasRecorder 0 (.tagged t) ∧ s.HasRecorder 1 (.tagged t') ∧ t.unit ≠ t'.unit ∧
      t.subprograms ≠ t'.subprograms ∧
      (∃ ids, s.module.graph.list? t'.subprograms = some ids ∧
        ids.toList = ledger'.registered 1) ∧
      ∀ depth, ∃ account, s.account? ledger' depth 1 = some account ∧
        p.account? ledger depth 0 = some account := by
  have hcommands : ∀ command ∈ turnsRun, command.leavesMetadata = true := by decide
  let declared := startDeclaring [] "m" "main" ⟨.void, []⟩
  have hdeclare := perform_start_addFunction [] "m" "main" ⟨.void, []⟩
  have hrun : ((Session.start [] "m").run turnsRun).2 = (declared.run turnsRun.tail).2 :=
    run_cons hdeclare _
  have hledger : (Session.start [] "m").follow ledgerAfter {} turnsRun =
      declared.follow ledgerAfter {} turnsRun.tail := follow_cons hdeclare _ _
  have hkept : (Session.start [] "m").leaveOut 0 {} turnsRun = lonelyRun := by
    rw [turnsRun, leaveOut_cons hdeclare]
    decide +kernel
  have hfirst : ((declared.run turnsRun.tail).2.recorders[0]?.bind
      (·.recorder.list?)).isSome = true := by decide +kernel
  have hsecond : ((declared.run turnsRun.tail).2.recorders[1]?.bind
      (·.recorder.list?)).isSome = true := by decide +kernel
  obtain ⟨haccounts, hapart, hcontent⟩ :=
    accounts_unaffected [] "m" turnsRun hcommands 0 hrun hledger hkept rfl rfl
  obtain ⟨t, ht⟩ := exists_tagged_of_list? hfirst
  obtain ⟨t', ht'⟩ := exists_tagged_of_list? hsecond
  have hne : (declared.follow ledgerAfter {} turnsRun.tail).family? 0 ≠
      (declared.follow ledgerAfter {} turnsRun.tail).family? 1 := by decide +kernel
  obtain ⟨hunit, hlist⟩ := hapart 0 1 _ _ ht ht' hne
  refine ⟨hcommands, hkept, _, _, _, _, t, t', hrun, hledger, rfl, rfl, ht, ht', ?_, ?_, ?_, ?_⟩
  · exact fun hsame => hunit t.unit rfl (congrArg some hsame.symm)
  · exact fun hsame => hlist t.subprograms rfl (congrArg some hsame.symm)
  · exact hcontent 1 t' 1 ht' (by decide +kernel)
  · have hplace : (declared.follow ledgerAfter {} turnsRun.tail).place 0 1 = 0 := by
      decide +kernel
    intro depth
    obtain ⟨account, haccount, hsame⟩ := haccounts 1 ht'.lt (by decide +kernel) depth
    rw [hplace] at hsame
    exact ⟨account, haccount, hsame⟩

end Session

end DebugMetadata

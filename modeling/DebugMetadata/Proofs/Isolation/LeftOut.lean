import DebugMetadata.Proofs.Isolation.Sessions

/-!
# Runs without a family of recorders

What concerns a family of recorders can be left out of a run: handles apart, the other
recorders end as they do in the whole run.
-/

namespace DebugMetadata

variable {R R' : NodeId → NodeId → Prop} {L L' : ListId → ListId → Prop} {root n : Nat}

/-! ## Modules -/

namespace Module.Alike

variable {m m' : Module} {c c' : Cursor}

theorem agree_addFunction (h : m.Alike R L m') (name : String) (signature : Signature) :
    Agree (fun a b => a.2.Alike R L b.2) (m.addFunction name signature)
      (m'.addFunction name signature) := by
  cases hfresh : m.functionIndex.contains name with
  | true =>
      have hfresh' : m'.functionIndex.contains name = true := by rwa [h.frame.index]
      rw [addFunction, addFunction, if_pos hfresh, if_pos hfresh']
      exact .refl_error _
  | false =>
      have hfresh' : m'.functionIndex.contains name = false := by rwa [h.frame.index]
      rw [addFunction_of_not_contains hfresh, addFunction_of_not_contains hfresh']
      exact .ok (h.pushFunction name signature)

theorem agree_appendBlock (h : m.Alike R L m') (function : FunctionId) (label : String) :
    Agree (fun a b => a.2.Alike R L b.2) (Session.found (m.appendBlock? function label))
      (Session.found (m'.appendBlock? function label)) := by
  by_cases hlt : function.index < m.functions.size
  · have hlt' : function.index < m'.functions.size := h.size_functions ▸ hlt
    rw [appendBlock?_of_lt hlt, appendBlock?_of_lt hlt']
    exact .ok (h.pushBlock function label)
  · have hlt' : ¬ function.index < m'.functions.size := h.size_functions ▸ hlt
    rw [appendBlock?, appendBlock?, if_neg hlt, if_neg hlt']
    exact .refl_error _

theorem agree_emit (h : m.Alike R L m') (hblock : c'.block = c.block) (operation : Operation) :
    Agree (fun a b => a.2.Alike R L b.2) (Session.found (m.emit? c operation))
      (Session.found (m'.emit? c' operation)) := by
  by_cases hlt : c.block.index < m.blocks.size
  · have hlt' : c'.block.index < m'.blocks.size := by rwa [hblock, h.size_blocks]
    rw [emit?_of_lt operation hlt, emit?_of_lt operation hlt']
    exact .ok (h.pushInstruction _ _)
  · have hlt' : ¬ c'.block.index < m'.blocks.size := by rwa [hblock, h.size_blocks]
    rw [emit?, emit?, appendInstruction?, appendInstruction?, if_neg hlt, if_neg hlt']
    exact .refl_error _

end Module.Alike

namespace Session

/-- The first session is the second one without a family of recorders. -/
structure LeavesOut (root : Nat) (R : NodeId → NodeId → Prop) (L : ListId → ListId → Prop)
    (p : Session) (ledger : Ledger) (s : Session) (ledger' : Ledger) : Prop where
  workingDirectory : s.workingDirectory = p.workingDirectory
  module : p.module.Alike R L s.module
  cursors : s.cursors.map (·.block) = p.cursors.map (·.block)
  recorders : KeepsOthers root R L p.recorders ledger s.recorders ledger'

/-- The sessions after a command, with their ledgers, are alike in some handles. -/
def StaysOut (root : Nat) (ledger ledger' : Ledger) (a b : Answer × Session) : Prop :=
  ∃ R L, LeavesOut root R L a.2 ledger b.2 ledger'

variable {p s s' : Session} {ledger ledger' : Ledger} {command : Command} {answer : Answer}

theorem leavesOut_start (root : Nat) (workingDirectory : List UInt8) (name : String) :
    LeavesOut root (fun _ _ => False) (fun _ _ => False) (start workingDirectory name) {}
      (start workingDirectory name) {} := by
  refine ⟨rfl, ⟨.refl _, .empty⟩, rfl, rfl, rfl, rfl, ?_, ?_⟩
  · intro n slot' entry' hslot'
    cases hslot'
  · intro n slot' t hslot'
    cases hslot'

private theorem map_block_modify (cursors : Array Cursor) (k : Nat) (c : Cursor) :
    (cursors.modify k fun _ => c).map (·.block) =
      (cursors.map (·.block)).modify k fun _ => c.block :=
  Module.map_modify _ _ fun _ => rfl

namespace LeavesOut

/-! ## Commands that are told to both sessions -/

theorem agree_cursor (h : LeavesOut root R L p ledger s ledger') (k : Nat) :
    Agree (fun c c' => c'.block = c.block) (p.cursor k) (s.cursor k) := by
  have hblock : (s.cursors[k]?).map (·.block) = (p.cursors[k]?).map (·.block) := by
    rw [← Array.getElem?_map, ← Array.getElem?_map, h.cursors]
  rw [cursor, cursor]
  cases hc : p.cursors[k]? with
  | none =>
      rw [hc, Option.map_none, Option.map_eq_none_iff] at hblock
      rw [hblock]
      exact .refl_error _
  | some c =>
      rw [hc, Option.map_some, Option.map_eq_some_iff] at hblock
      obtain ⟨c', hc', hsame⟩ := hblock
      rw [hc']
      exact .ok hsame

theorem cursors_set (h : LeavesOut root R L p ledger s ledger') {c c' : Cursor}
    (hblock : c'.block = c.block) (k : Nat) :
    (s.setCursor k c').cursors.map (·.block) = (p.setCursor k c).cursors.map (·.block) := by
  rw [setCursor, setCursor, map_block_modify, map_block_modify, h.cursors, hblock]

/-- A recorder that is not of the family is found in both sessions, or in none. -/
theorem agree_slot (h : LeavesOut root R L p ledger s ledger')
    (hfamily : ledger'.family? n ≠ some root) :
    Agree (fun slot slot' => p.recorders[ledger'.place root n]? = some slot ∧
        s.recorders[n]? = some slot' ∧ slot'.choice = slot.choice ∧
        slot.recorder.Alike R L slot'.recorder)
      (p.slot (ledger'.place root n)) (s.slot n) := by
  rw [Session.slot, Session.slot]
  cases hslot' : s.recorders[n]? with
  | none =>
      have hle := Array.getElem?_eq_none_iff.mp hslot'
      have hplace := ledger'.place_le root hle
      rw [← h.recorders.place] at hplace
      rw [Array.getElem?_eq_none_iff.mpr hplace]
      exact .error (by simp)
  | some slot' =>
      obtain ⟨entry', hentry'⟩ := h.recorders.exists_entry hslot'
      have hkept : entry'.family ≠ root := by
        rw [Ledger.family?, hentry', Option.map_some, ne_eq, Option.some.injEq] at hfamily
        exact hfamily
      obtain ⟨slot, entry, hslot, hentry, halike⟩ := h.recorders.kept hslot' hentry' hkept
      rw [hslot]
      exact .ok ⟨rfl, rfl, halike.choice, halike.recorder⟩

theorem agree_performCursor (h : LeavesOut root R L p ledger s ledger') (k : Nat)
    (command : CursorCommand) :
    Agree (StaysOut root ledger ledger') (p.performCursor k command)
      (s.performCursor k command) := by
  refine (h.agree_cursor k).bind ?_
  intro c c' hblock
  cases command with
  | moveTo block =>
      have hset := h.cursors_set
        (show (c'.moveTo block).block = (c.moveTo block).block from rfl) k
      exact .ok ⟨R, L, h.workingDirectory, h.module, hset, h.recorders⟩
  | locate location =>
      have hset := h.cursors_set
        (show (c'.locate location).block = (c.locate location).block from hblock) k
      exact .ok ⟨R, L, h.workingDirectory, h.module, hset, h.recorders⟩
  | emit operation =>
      refine (h.module.agree_emit hblock operation).bind ?_
      intro a b hmodule
      exact .ok ⟨R, L, h.workingDirectory, hmodule, h.cursors, h.recorders⟩

/-- What a recorder is told leaves it as it is, but for a location that it may create. -/
theorem tell_self (h : LeavesOut root R L p ledger s ledger') {slot slot' : RecorderSlot}
    (hfamily : ledger'.family? n ≠ some root) {command : RecorderCommand}
    (hslot : p.recorders[ledger'.place root n]? = some slot)
    (hslot' : s.recorders[n]? = some slot') (halike : slot.recorder.Alike R L slot'.recorder)
    (hR : ∀ id id', R id id' → R' id id')
    (hlocation : Option.Rel R' (slot.recorder.location? p.module command)
      (slot'.recorder.location? s.module command)) :
    KeepsOthers root R' L p.recorders
      (ledger.add (ledger'.place root n) slot.recorder p.module command) s.recorders
      (ledger'.add n slot'.recorder s.module command) := by
  have htold := h.recorders.tell hR hfamily (halike.mono hR fun _ _ hlist => hlist) hlocation
  rw [recorders_modify_self hslot, recorders_modify_self hslot'] at htold
  exact htold

theorem agree_performRecorder (h : LeavesOut root R L p ledger s ledger')
    (hfamily : ledger'.family? n ≠ some root) (command : RecorderCommand) :
    Agree (StaysOut root
        (p.ledgerAfter ledger (.recorder (ledger'.place root n) command))
        (s.ledgerAfter ledger' (.recorder n command)))
      (p.performRecorder (ledger'.place root n) command) (s.performRecorder n command) := by
  refine (h.agree_slot hfamily).bind ?_
  rintro slot slot' ⟨hslot, hslot', hchoice, halike⟩
  have hexposed : slot'.isExposed = slot.isExposed := by
    rw [RecorderSlot.isExposed, hchoice, RecorderSlot.isExposed]
  cases command with
  | clone =>
      dsimp only
      rw [hexposed]
      cases slot.isExposed with
      | false => exact .error (by simp)
      | true =>
          obtain ⟨entry', hentry'⟩ := h.recorders.exists_entry hslot'
          have hknown : ledger'.family? n = some entry'.family := by
            rw [Ledger.family?, hentry', Option.map_some]
          have hroot : (ledger'.family? n).getD n ≠ root := by
            rw [hknown] at hfamily ⊢
            exact fun heq => hfamily (congrArg some heq)
          exact .ok ⟨R, L, h.workingDirectory, h.module, h.cursors,
            h.recorders.push (fun _ _ hid => hid) (fun _ _ hlist => hlist) h.recorders.separate
              hchoice halike hroot _⟩
  | markSubprogram function name line =>
      rw [ledgerAfter_recorder hslot (by simp), ledgerAfter_recorder hslot' (by simp)]
      refine (halike.agree_markSubprogram h.module function name line).bind ?_
      rintro ⟨r, m, event⟩ ⟨r', m', event'⟩ ⟨R', hR, hr, hm⟩
      exact .ok ⟨R', L, h.workingDirectory, hm, h.cursors, h.recorders.tell hR hfamily hr .none⟩
  | markLocation k line =>
      rw [ledgerAfter_recorder hslot (by simp), ledgerAfter_recorder hslot' (by simp)]
      refine (h.agree_cursor k).bind ?_
      intro c c' hblock
      refine (halike.agree_markLocation h.module hblock k line).bind ?_
      rintro ⟨r, c₁, m, event⟩ ⟨r', c₁', m', event'⟩ ⟨R', hR, hr, hc, hc', hm, hlocation⟩
      exact .ok ⟨R', L, h.workingDirectory, hm, h.cursors_set (hc'.trans hc.symm) k,
        h.recorders.tell hR hfamily hr hlocation⟩
  | finalize =>
      rw [ledgerAfter_recorder hslot (by simp), ledgerAfter_recorder hslot' (by simp)]
      exact .ok ⟨R, L, h.workingDirectory, Recorder.alike_finalize h.module _ _, h.cursors,
        h.tell_self hfamily hslot hslot' halike (fun _ _ hid => hid) .none⟩
  | addSubprogram name linkageName line =>
      rw [ledgerAfter_recorder hslot (by simp), ledgerAfter_recorder hslot' (by simp)]
      dsimp only
      rw [hexposed]
      rcases halike.addSubprogram?_cases h.module name linkageName line with
        ⟨hnone, hnone'⟩ | ⟨id, r, m, id', r', m', R', hadd, hadd', hR, hr, hm⟩
      · rw [hnone, hnone']
        cases slot.isExposed with
        | _ => exact .error (by simp)
      · rw [hadd, hadd']
        cases slot.isExposed with
        | false => exact .error (by simp)
        | true =>
            exact .ok ⟨R', L, h.workingDirectory, hm, h.cursors,
              h.recorders.tell hR hfamily hr .none⟩
  | addLocation line =>
      rw [ledgerAfter_recorder hslot (by simp), ledgerAfter_recorder hslot' (by simp)]
      dsimp only
      rw [hexposed]
      rcases halike.addLocation?_cases h.module line with
        ⟨hnone, hnone'⟩ | ⟨x, x', hadd, hadd', hagree⟩
      · rw [hnone, hnone']
        cases slot.isExposed with
        | _ => exact .error (by simp)
      · rw [hadd, hadd']
        cases slot.isExposed with
        | false => exact .error (by simp)
        | true =>
            cases hagree with
            | error hfault => exact .error hfault
            | @ok a b hsame =>
                obtain ⟨R', hR, hid, hm⟩ := hsame
                have hlocation : Option.Rel R'
                    (slot.recorder.location? p.module (.addLocation line))
                    (slot'.recorder.location? s.module (.addLocation line)) := by
                  simp only [Recorder.location?, Recorder.newLocation?, hadd, hadd']
                  exact .some hid
                exact .ok ⟨R', L, h.workingDirectory, hm, h.cursors,
                  h.tell_self hfamily hslot hslot' halike hR hlocation⟩

/-- The list of a recorder of the family is not one that is made anew. -/
private theorem separate_new (h : LeavesOut root R L p ledger s ledger') (hrooted : s.Rooted)
    (hL : ∀ list list', L' list list' →
      L list list' ∨ list'.index = s.module.graph.lists.size) {slot' : RecorderSlot}
    {t : TaggedRecorder} (hslot' : s.recorders[n]? = some slot') (ht : slot'.recorder = .tagged t)
    (hroot : ledger'.family? n = some root) (list : ListId) : ¬ L' list t.subprograms := by
  intro hlist
  rcases hL list t.subprograms hlist with hold | hnew
  · exact h.recorders.separate hslot' ht hroot list hold
  · have htagged : t.Rooted s.module.graph := hrooted.hasRecorder ⟨slot', hslot', ht⟩
    obtain ⟨ids, hids⟩ := Option.isSome_iff_exists.mp htagged.subprograms
    exact absurd hnew (Nat.ne_of_lt (Graph.lt_lists_size_of_list? hids))

theorem agree_createRecorder (h : LeavesOut root R L p ledger s ledger') (hrooted : s.Rooted)
    (hroot : ledger'.entries.size ≠ root) (choice : RecorderChoice) (settings : Settings)
    (path : List UInt8) :
    Agree (StaysOut root (p.ledgerAfter ledger (.createRecorder choice settings path))
        (s.ledgerAfter ledger' (.createRecorder choice settings path)))
      (p.perform (.createRecorder choice settings path))
      (s.perform (.createRecorder choice settings path)) := by
  rw [perform, perform, h.workingDirectory]
  refine (Recorder.agree_create h.module _ settings _ path).bind ?_
  rintro ⟨r, m, event⟩ ⟨r', m', event'⟩ ⟨R', L', hR, hL, hnew, hr, hm⟩
  have hchoice : (⟨choice, r'⟩ : RecorderSlot).choice = (⟨choice, r⟩ : RecorderSlot).choice := rfl
  exact .ok ⟨R', L', rfl, hm, h.cursors, h.recorders.push hR hL
    (fun hslot' ht hfamily => h.separate_new hrooted hnew hslot' ht hfamily) hchoice hr hroot _⟩

/-- A command that does not concern the family is told to both sessions. -/
theorem agree_perform (h : LeavesOut root R L p ledger s ledger') (hrooted : s.Rooted)
    (hconcerns : ledger'.concerns root command = false) (hcommand : command.leavesMetadata = true) :
    Agree (StaysOut root (p.ledgerAfter ledger (command.renumber (ledger'.place root)))
        (s.ledgerAfter ledger' command))
      (p.perform (command.renumber (ledger'.place root))) (s.perform command) := by
  cases command with
  | setSourceFilename filename =>
      refine .ok ⟨R, L, h.workingDirectory, ⟨?_, h.module.graph⟩, h.cursors, h.recorders⟩
      exact ⟨h.module.frame.names, h.module.frame.index, h.module.frame.owners⟩
  | addFunction name signature =>
      refine (h.module.agree_addFunction name signature).bind ?_
      intro a b hmodule
      exact .ok ⟨R, L, h.workingDirectory, hmodule, h.cursors, h.recorders⟩
  | appendBlock function label =>
      refine (h.module.agree_appendBlock function label).bind ?_
      intro a b hmodule
      exact .ok ⟨R, L, h.workingDirectory, hmodule, h.cursors, h.recorders⟩
  | openCursor block =>
      refine .ok ⟨R, L, h.workingDirectory, h.module, ?_, h.recorders⟩
      dsimp only
      rw [Array.map_push, Array.map_push, h.cursors]
  | cursor k command => exact h.agree_performCursor k command
  | createRecorder choice settings path =>
      exact h.agree_createRecorder hrooted (of_decide_eq_false hconcerns) choice settings path
  | recorder n command =>
      exact h.agree_performRecorder (of_decide_eq_false hconcerns) command
  | edit edit => cases hcommand
  | attachToFunction function key node => cases hcommand
  | attachToInstruction instr key node => cases hcommand
  | addFlag flag => cases hcommand

/-! ## Commands that are told to the family alone -/

/-- A recorder of the family touches no list of the others. -/
private theorem list?_eq (h : LeavesOut root R L p ledger s ledger')
    (hconcerns : ledger'.concerns root command = true) (hperform : s.Performs command answer s')
    {list list' : ListId} (hlist : L list list') :
    s'.module.graph.list? list' = s.module.graph.list? list' := by
  obtain ⟨-, ids, -, hids, -⟩ := h.module.graph.lists hlist
  obtain ⟨ids', hids', -⟩ := hperform.grows.lists list' ids hids
  cases hperform.listOrigin hids' with
  | kept hkept => rw [hids', hkept]
  | edited edit hedit => cases hconcerns
  | created choice settings path hnew =>
      exact absurd hnew (Nat.ne_of_lt (Graph.lt_lists_size_of_list? hids))
  | registered function name line hslot ht hf hown hold hgraph =>
      exact absurd hlist
        (hown ▸ h.recorders.separate hslot ht (of_decide_eq_true hconcerns) list)
  | added name linkageName line hslot ht hown hold hgraph =>
      exact absurd hlist
        (hown ▸ h.recorders.separate hslot ht (of_decide_eq_true hconcerns) list)

private theorem drop_module (h : LeavesOut root R L p ledger s ledger')
    (hconcerns : ledger'.concerns root command = true) (hperform : s.Performs command answer s') :
    p.module.Alike R L s'.module := by
  refine ⟨h.module.frame.trans ?_, h.module.graph.of_grows (.refl _) hperform.grows
    (fun _ => rfl) fun hlist => h.list?_eq hconcerns hperform hlist⟩
  rcases hperform.frame_cases with ⟨name, signature, rfl, -⟩ | ⟨function, label, rfl, -⟩ | hframe
  · cases hconcerns
  · cases hconcerns
  · exact hframe

private theorem drop_cursors (hconcerns : ledger'.concerns root command = true)
    (hperform : s.Performs command answer s') :
    s'.cursors.map (·.block) = s.cursors.map (·.block) := by
  cases hperform with
  | @markLocation n k slot c c' line r m event hslot hc hmark =>
      have hblock : c'.block = c.block := by
        rcases Recorder.markLocation_cases hmark with
          ⟨-, -, hsame, -⟩ | ⟨t, scope, -, -, -, hsame, -⟩ |
          ⟨t, -, -, -, hsame, -⟩ | ⟨t, scope, -, -, -, -, -, hsame, -⟩
        · rw [hsame]
        · rw [hsame]
          rfl
        · rw [hsame]
        · rw [hsame]
      change (s.cursors.modify k fun _ => c').map (·.block) = _
      rw [map_block_modify]
      apply Module.modify_eq_self
      intro block hold
      rw [Array.getElem?_map, hc, Option.map_some, Option.some.injEq] at hold
      rw [hblock, hold]
  | createRecorder choice settings path hcreate => rfl
  | clone hslot hexposed => rfl
  | markSubprogram function name line hslot hmark => rfl
  | finalize hslot => rfl
  | addSubprogram name linkageName line hslot hexposed hadd => rfl
  | addLocation line hslot hexposed hadd => rfl
  | _ => cases hconcerns

/-- A recorder of the family keeps its list, which is related to none. -/
private theorem separate_leadsTo (h : LeavesOut root R L p ledger s ledger') {slot : RecorderSlot}
    (hslot : s.recorders[n]? = some slot) (hfamily : ledger'.family? n = some root)
    {r : Recorder} (hleads : slot.recorder.LeadsTo r) (t : TaggedRecorder) (ht : r = .tagged t)
    (list : ListId) : ¬ L list t.subprograms := by
  subst ht
  generalize hold : slot.recorder = old at hleads
  cases hleads with
  | tagged hleads =>
      rw [hleads.subprograms]
      exact h.recorders.separate hslot hold hfamily list

private theorem tellFamily_self (h : LeavesOut root R L p ledger s ledger') {slot : RecorderSlot}
    (hslot : s.recorders[n]? = some slot) (hfamily : ledger'.family? n = some root)
    (command : RecorderCommand) :
    KeepsOthers root R L p.recorders ledger s.recorders
      (ledger'.add n slot.recorder s.module command) := by
  rw [← recorders_modify_self hslot]
  exact h.recorders.tellFamily hfamily (h.separate_leadsTo hslot hfamily (.refl slot.recorder))

private theorem drop_recorders (h : LeavesOut root R L p ledger s ledger')
    (hconcerns : ledger'.concerns root command = true) (hperform : s.Performs command answer s') :
    KeepsOthers root R L p.recorders ledger s'.recorders (s.ledgerAfter ledger' command) := by
  cases hperform with
  | @createRecorder choice settings path r m event hcreate =>
      have hroot : ledger'.entries.size = root := of_decide_eq_true hconcerns
      rw [ledgerAfter, hroot]
      refine h.recorders.pushFamily ?_
      intro t ht list hlist
      obtain ⟨-, ids, -, hids, -⟩ := h.module.graph.lists hlist
      have hlt := Graph.lt_lists_size_of_list? hids
      rcases Recorder.create_cases hcreate with
        ⟨-, hr, -⟩ | ⟨source, -, -, hr, -⟩ | ⟨source, -, -, hr, -⟩
      · cases hr.symm.trans ht
      · cases hr.symm.trans ht
      · rw [← Recorder.tagged.inj (hr.symm.trans ht), TaggedRecorder.subprograms_create] at hlt
        exact absurd hlt (Nat.lt_irrefl _)
  | @clone n slot hslot hexposed =>
      have hfamily : ledger'.family? n = some root := of_decide_eq_true hconcerns
      rw [ledgerAfter, hfamily]
      exact h.recorders.pushFamily fun t ht => h.recorders.separate hslot ht hfamily
  | @markSubprogram n slot function name line r m event hslot hmark =>
      have hfamily : ledger'.family? n = some root := of_decide_eq_true hconcerns
      rw [ledgerAfter_recorder hslot (by simp)]
      exact h.recorders.tellFamily hfamily
        (h.separate_leadsTo hslot hfamily (Recorder.leadsTo_markSubprogram hmark))
  | @markLocation n k slot c c' line r m event hslot hc hmark =>
      have hfamily : ledger'.family? n = some root := of_decide_eq_true hconcerns
      rw [ledgerAfter_recorder hslot (by simp)]
      exact h.recorders.tellFamily hfamily
        (h.separate_leadsTo hslot hfamily (Recorder.leadsTo_markLocation hmark).1)
  | @finalize n slot hslot =>
      have hfamily : ledger'.family? n = some root := of_decide_eq_true hconcerns
      rw [ledgerAfter_recorder hslot (by simp)]
      exact h.tellFamily_self hslot hfamily _
  | @addSubprogram n slot name linkageName line id r m hslot hexposed hadd =>
      have hfamily : ledger'.family? n = some root := of_decide_eq_true hconcerns
      rw [ledgerAfter_recorder hslot (by simp)]
      exact h.recorders.tellFamily hfamily
        (h.separate_leadsTo hslot hfamily (Recorder.leadsTo_addSubprogram? hadd))
  | @addLocation n slot line id m hslot hexposed hadd =>
      have hfamily : ledger'.family? n = some root := of_decide_eq_true hconcerns
      rw [ledgerAfter_recorder hslot (by simp)]
      exact h.tellFamily_self hslot hfamily _
  | _ => cases hconcerns

/-- What concerns the family may be told to the second session alone. -/
theorem drop (h : LeavesOut root R L p ledger s ledger')
    (hconcerns : ledger'.concerns root command = true) (hperform : s.Performs command answer s') :
    LeavesOut root R L p ledger s' (s.ledgerAfter ledger' command) where
  workingDirectory := by
    rw [← h.workingDirectory]
    cases hperform with
    | _ => rfl
  module := h.drop_module hconcerns hperform
  cursors := (drop_cursors hconcerns hperform).trans h.cursors
  recorders := h.drop_recorders hconcerns hperform

/-! ## Runs -/

/-- A run without a family of recorders keeps pace with the whole run. -/
theorem run {commands : List Command} : ∀ {R : NodeId → NodeId → Prop} {L : ListId → ListId → Prop}
    {p s : Session} {ledger ledger' : Ledger}, LeavesOut root R L p ledger s ledger' → s.Rooted →
    (∀ command ∈ commands, command.leavesMetadata = true) → ∃ R' L',
      LeavesOut root R' L' (p.run (s.leaveOut root ledger' commands)).2
        (p.follow ledgerAfter ledger (s.leaveOut root ledger' commands)) (s.run commands).2
        (s.follow ledgerAfter ledger' commands) := by
  induction commands with
  | nil => exact fun h _ _ => ⟨_, _, h⟩
  | cons command rest ih =>
      intro R L p s ledger ledger' h hrooted hcommands
      have hcommand := hcommands command List.mem_cons_self
      have hrest : ∀ command ∈ rest, command.leavesMetadata = true :=
        fun c hc => hcommands c (List.mem_cons_of_mem _ hc)
      rw [leaveOut, Session.run, follow]
      cases hconcerns : ledger'.concerns root command with
      | true =>
          rw [if_pos rfl]
          cases hperform : s.perform command with
          | ok result =>
              obtain ⟨answer, s'⟩ := result
              have hperforms := performs_of_ok hperform
              exact ih (h.drop hconcerns hperforms) (hrooted.step hperforms) hrest
          | error fault =>
              cases fault with
              | dangling => exact ⟨R, L, h⟩
              | _ => exact ih h hrooted hrest
      | false =>
          have hagree := h.agree_perform hrooted hconcerns hcommand
          rw [if_neg (by simp)]
          cases hperform : s.perform command with
          | ok result =>
              rw [hperform] at hagree
              generalize hpart : p.perform (command.renumber (ledger'.place root)) = part at hagree
              cases hagree with
              | @ok a _ hstays =>
                  obtain ⟨R', L', hafter⟩ := hstays
                  obtain ⟨answer, p'⟩ := a
                  dsimp only [List.singleton_append]
                  rw [run_cons hpart, follow_cons hpart]
                  exact ih hafter (hrooted.step (performs_of_ok hperform)) hrest
          | error fault =>
              rw [hperform] at hagree
              generalize hpart : p.perform (command.renumber (ledger'.place root)) = part at hagree
              cases hagree with
              | @error fault' _ hfault =>
                  cases fault with
                  | dangling =>
                      rw [hfault.mpr rfl] at hpart
                      dsimp only
                      rw [Session.run, follow, hpart]
                      exact ⟨R, L, h⟩
                  | _ =>
                      have hne : fault' ≠ .dangling := mt hfault.mp (by simp)
                      dsimp only [List.singleton_append]
                      rw [run_cons_of_error hpart hne, follow_cons_of_error hpart hne]
                      exact ih h hrooted hrest

end LeavesOut

end Session

end DebugMetadata

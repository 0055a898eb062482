import DebugMetadata.Proofs.History.Basic

/-!
# What holds of recorders and their histories

A relation between a recorder, its history and the graph is kept by a whole run if it is
kept by each call of one recorder.  Then it holds of all recorders of a session, in whatever
order they were told what, and of clones from the moment they are made.
-/

namespace DebugMetadata

/-- Every call keeps the relation between a recorder, its history and the graph. -/
structure Recorder.Tracks (P : Recorder → History → Graph → Prop) : Prop where
  mono {r : Recorder} {history : History} {g g' : Graph} (h : P r history g)
    (hextends : g.Extends g') : P r history g'
  create {schema : Option Schema} {settings : Settings} {workingDirectory path : List UInt8}
    {m m' : Module} {r : Recorder} {event : Option Event} (hm : m.graph.Indexed)
    (hcreate : Recorder.create schema settings workingDirectory path m = .ok (r, m', event)) :
    P r {} m'.graph
  markSubprogram {m m' : Module} {r r' : Recorder} {history : History} {event : Option Event}
    {function : FunctionId} {name : String} {line : Nat} (h : P r history m.graph)
    (hm : m.graph.Indexed)
    (hmark : r.markSubprogram m function name line = .ok (r', m', event)) :
    P r' (history.add r m (.markSubprogram function name line)) m'.graph
  markLocation {m m' : Module} {r r' : Recorder} {history : History} {event : Option Event}
    {c c' : Cursor} {k line : Nat} (h : P r history m.graph)
    (hmark : r.markLocation m c line = .ok (r', c', m', event)) :
    P r' (history.add r m (.markLocation k line)) m'.graph
  addSubprogram {m m' : Module} {r r' : Recorder} {history : History} {id : NodeId}
    {name linkageName : String} {line : Nat} (h : P r history m.graph) (hm : m.graph.Indexed)
    (hadd : r.addSubprogram? name linkageName line m = some (id, r', m')) :
    P r' (history.add r m (.addSubprogram name linkageName line)) m'.graph

namespace Session

variable {P : Recorder → History → Graph → Prop}

/-- The relation holds of every recorder of the session and its history. -/
structure Tracked (P : Recorder → History → Graph → Prop) (s : Session)
    (histories : Array History) : Prop where
  indexed : s.module.graph.Indexed
  size : histories.size = s.recorders.size
  holds : ∀ (n : Nat) (slot : RecorderSlot) (history : History),
    s.recorders[n]? = some slot → histories[n]? = some history →
      P slot.recorder history s.module.graph

namespace Tracked

variable {s s' : Session} {histories : Array History} {n : Nat} {slot slot' : RecorderSlot}
  {command : RecorderCommand}

theorem start (workingDirectory : List UInt8) (name : String) :
    (Session.start workingDirectory name).Tracked P #[] := by
  refine ⟨Graph.indexed_empty, rfl, ?_⟩
  intro n slot history hslot
  cases hslot

/-- A history exists for every recorder. -/
theorem exists_history (h : s.Tracked P histories) (hslot : s.recorders[n]? = some slot) :
    ∃ history, histories[n]? = some history ∧ P slot.recorder history s.module.graph := by
  have hlt : n < histories.size := h.size ▸ (Array.getElem?_eq_some_iff.mp hslot).1
  have hhistory := Array.getElem?_eq_getElem hlt
  exact ⟨_, hhistory, h.holds n slot _ hslot hhistory⟩

theorem of_grows (hP : Recorder.Tracks P) (h : s.Tracked P histories)
    (hrecorders : s'.recorders = s.recorders)
    (hgrows : s.module.graph.Grows s'.module.graph) : s'.Tracked P histories := by
  refine ⟨hgrows.indexed h.indexed, ?_, ?_⟩
  · rw [hrecorders]
    exact h.size
  · intro n slot history hslot hhistory
    rw [hrecorders] at hslot
    exact hP.mono (h.holds n slot history hslot hhistory) hgrows.nodes

theorem of_silent (hP : Recorder.Tracks P) (h : s.Tracked P histories)
    (hline : command.line? = none)
    (hregistration : slot.recorder.registration? s.module command = none)
    (hrecorders : s'.recorders = s.recorders) (hgrows : s.module.graph.Grows s'.module.graph) :
    s'.Tracked P (histories.modify n (·.add slot.recorder s.module command)) := by
  have hsame : histories.modify n (·.add slot.recorder s.module command) = histories :=
    Module.modify_eq_self fun history _ => History.add_of_none hline hregistration history
  rw [hsame]
  exact h.of_grows hP hrecorders hgrows

theorem push (hP : Recorder.Tracks P) (h : s.Tracked P histories) {history : History}
    (hrecorders : s'.recorders = s.recorders.push slot)
    (hgrows : s.module.graph.Grows s'.module.graph)
    (hnew : P slot.recorder history s'.module.graph) :
    s'.Tracked P (histories.push history) := by
  refine ⟨hgrows.indexed h.indexed, ?_, ?_⟩
  · rw [hrecorders, Array.size_push, Array.size_push, h.size]
  · intro k slot' history' hslot' hhistory'
    rw [hrecorders, Array.getElem?_push, ← h.size] at hslot'
    rw [Array.getElem?_push] at hhistory'
    by_cases hk : k = histories.size
    · rw [if_pos hk] at hslot' hhistory'
      cases hslot'
      cases hhistory'
      exact hnew
    · rw [if_neg hk] at hslot' hhistory'
      exact hP.mono (h.holds k slot' history' hslot' hhistory') hgrows.nodes

theorem call (hP : Recorder.Tracks P) (h : s.Tracked P histories)
    (hslot : s.recorders[n]? = some slot) (hslot' : s'.recorders[n]? = some slot')
    (hsize : s'.recorders.size = s.recorders.size)
    (hothers : ∀ k, k ≠ n → s'.recorders[k]? = s.recorders[k]?)
    (hgrows : s.module.graph.Grows s'.module.graph)
    (hcall : ∀ history, P slot.recorder history s.module.graph →
      P slot'.recorder (history.add slot.recorder s.module command) s'.module.graph) :
    s'.Tracked P (histories.modify n (·.add slot.recorder s.module command)) := by
  refine ⟨hgrows.indexed h.indexed, ?_, ?_⟩
  · rw [Array.size_modify, hsize, h.size]
  · intro k slot₁ history₁ hslot₁ hhistory₁
    rw [Array.getElem?_modify] at hhistory₁
    by_cases hk : k = n
    · subst hk
      rw [if_pos rfl] at hhistory₁
      obtain ⟨history, hhistory, rfl⟩ := Option.map_eq_some_iff.mp hhistory₁
      cases hslot'.symm.trans hslot₁
      exact hcall history (h.holds k slot history hslot hhistory)
    · rw [if_neg (Ne.symm hk)] at hhistory₁
      rw [hothers k hk] at hslot₁
      exact hP.mono (h.holds k slot₁ history₁ hslot₁ hhistory₁) hgrows.nodes

theorem step (hP : Recorder.Tracks P) (h : s.Tracked P histories) {command : Command}
    {answer : Answer} (hperform : s.Performs command answer s') :
    s'.Tracked P (s.historiesAfter histories command) := by
  have hgrows := hperform.grows
  cases hperform with
  | createRecorder choice settings path hcreate => exact h.push hP rfl hgrows (hP.create h.indexed hcreate)
  | @clone n slot hslot hexposed =>
      obtain ⟨history, hhistory, hold⟩ := h.exists_history hslot
      have hget : histories.getD n {} = history := by
        rw [Array.getD_eq_getD_getElem?, hhistory, Option.getD_some]
      exact h.push hP rfl hgrows (hget ▸ hold)
  | markSubprogram function name line hslot hmark =>
      simp only [historiesAfter, hslot]
      exact h.call hP hslot (getElem?_setRecorder_self hslot _) (size_setRecorder _ _ _)
        (fun k hk => getElem?_setRecorder_of_ne hk _) hgrows
        fun history hold => hP.markSubprogram hold h.indexed hmark
  | markLocation line hslot hc hmark =>
      simp only [historiesAfter, hslot]
      exact h.call hP hslot (getElem?_setRecorder_self hslot _) (size_setRecorder _ _ _)
        (fun k hk => getElem?_setRecorder_of_ne hk _) hgrows
        fun history hold => hP.markLocation hold hmark
  | finalize hslot =>
      simp only [historiesAfter, hslot]
      exact h.of_silent hP rfl rfl rfl hgrows
  | addSubprogram name linkageName line hslot hexposed hadd =>
      simp only [historiesAfter, hslot]
      exact h.call hP hslot (getElem?_setRecorder_self hslot _) (size_setRecorder _ _ _)
        (fun k hk => getElem?_setRecorder_of_ne hk _) hgrows
        fun history hold => hP.addSubprogram hold h.indexed hadd
  | addLocation line hslot hexposed hadd =>
      simp only [historiesAfter, hslot]
      exact h.of_silent hP rfl rfl rfl hgrows
  | _ => exact h.of_grows hP rfl hgrows

end Tracked

end Session

/-- What each call keeps holds after every run. -/
theorem Recorder.Tracks.run {P : Recorder → History → Graph → Prop} (hP : Recorder.Tracks P)
    (commands : List Command) (workingDirectory : List UInt8) (name : String) :
    ((Session.start workingDirectory name).run commands).2.Tracked P
      ((Session.start workingDirectory name).remember #[] commands) :=
  Session.run_invariant (fun h hperform => h.step hP hperform) (.start workingDirectory name)

end DebugMetadata

import DebugMetadata.Proofs.Atomicity.Calls
import DebugMetadata.Proofs.Lines.Markers
import DebugMetadata.Proofs.Session.Continuity
import Mathlib.Data.List.Nodup

/-!
# Functions and their names

The functions of a module and their names stand for each other.  A name is taken by the first
declaration of it, the only one that succeeds, and stands for the function of that declaration
ever after.  So a tagged recorder, which is told of a function and looks it up again by its
name, finds the function it was told of.
-/

namespace DebugMetadata

/-! ## Names in a module -/

namespace Module

variable {m : Module} {name : String} {id : FunctionId}

theorem findFunction?_eq_none_iff :
    m.findFunction? name = none ↔ m.functionIndex.contains name = false := by
  rw [findFunction?, ← Std.HashMap.isSome_getElem?_eq_contains, Option.isSome_eq_false_iff,
    Option.isNone_iff_eq_none]

theorem addFunction_of_found (h : m.findFunction? name = some id) (signature : Signature) :
    m.addFunction name signature = .error (.duplicateFunction name) := by
  have htaken : m.functionIndex.contains name = true := by
    rw [← Std.HashMap.isSome_getElem?_eq_contains]
    exact Option.isSome_of_eq_some h
  rw [addFunction, if_pos htaken]

/-- A new function is found by its name, and the others are found as before. -/
theorem findFunction?_pushFunction {other : String} (signature : Signature)
    (hfresh : m.functionIndex.contains other = false) :
    (m.pushFunction other signature).findFunction? name = some id ↔
      m.findFunction? name = some id ∨ other = name ∧ id = ⟨m.functions.size⟩ := by
  change (m.functionIndex.insert other ⟨m.functions.size⟩)[name]? = some id ↔ _
  rw [Std.HashMap.getElem?_insert]
  by_cases hname : other = name
  · subst hname
    rw [if_pos (beq_self_eq_true other), findFunction?_eq_none_iff.mpr hfresh, Option.some.injEq,
      eq_comm]
    simp
  · rw [if_neg (mt eq_of_beq hname)]
    exact ⟨.inl, fun h => h.resolve_right fun hnew => hname hnew.1⟩

theorem Named.findFunction?_eq_some_iff (h : m.Named) :
    m.findFunction? name = some id ↔ ∃ f, m.function? id = some f ∧ f.name = name := by
  rw [h, getElem?_names, Option.map_eq_some_iff]

theorem Named.nodup_names (h : m.Named) : m.names.Nodup := by
  rw [List.nodup_iff_getElem?_ne_getElem?]
  intro i j hlt hj hsame
  rw [List.getElem?_eq_getElem hj] at hsame
  have hfirst := (h _ ⟨i⟩).mpr hsame
  have hsecond := (h _ ⟨j⟩).mpr (List.getElem?_eq_getElem hj)
  rw [hfirst, Option.some.injEq, FunctionId.mk.injEq] at hsecond
  exact absurd hsecond (Nat.ne_of_lt hlt)

end Module

/-! ## Names in a run -/

namespace Session

variable {s s' : Session} {command : Command} {answer : Answer} {name : String} {id : FunctionId}

theorem named_run (commands : List Command) (workingDirectory : List UInt8) (name : String) :
    ((start workingDirectory name).run commands).2.module.Named :=
  run_keeps (fun s => s.module.Named) (fun h hperform => hperform.named h)
    (Module.named_empty name) commands

/-- A name comes to stand for a function when the function is declared, and never otherwise. -/
theorem Performs.findFunction?_iff (h : s.Performs command answer s') :
    s'.module.findFunction? name = some id ↔
      s.module.findFunction? name = some id ∨
      ∃ signature, command = .addFunction name signature ∧ answer = .function id := by
  have hframe := h.frame_cases
  cases h with
  | addFunction other signature hfresh =>
      rw [Module.findFunction?_pushFunction signature hfresh]
      refine or_congr_right ?_
      constructor
      · rintro ⟨rfl, rfl⟩
        exact ⟨signature, rfl, rfl⟩
      · rintro ⟨signature', hcommand, hanswer⟩
        cases hcommand
        cases hanswer
        exact ⟨rfl, rfl⟩
  | _ =>
      rcases hframe with ⟨_, _, hcommand, -⟩ | ⟨_, _, -, hm⟩ | hframe
      · cases hcommand
      · rw [hm]
        exact (or_iff_left (by simp)).symm
      · rw [Module.findFunction?, hframe.index]
        exact (or_iff_left (by simp)).symm

/-- The commands, with their answers, declare the function under the name. -/
def Declares (commands : List Command) (answers : List (Except Fault Answer)) (name : String)
    (id : FunctionId) : Prop :=
  ∃ signature, (Command.addFunction name signature, .ok (.function id)) ∈ commands.zip answers

theorem declares_cons_ok {rest : List Command} {answers : List (Except Fault Answer)} :
    Declares (command :: rest) (.ok answer :: answers) name id ↔
      (∃ signature, command = .addFunction name signature ∧ answer = .function id) ∨
      Declares rest answers name id := by
  simp only [Declares, List.zip_cons_cons, List.mem_cons, Prod.mk.injEq, Except.ok.injEq,
    exists_or, eq_comm]

theorem declares_cons_error {rest : List Command} {answers : List (Except Fault Answer)}
    {fault : Fault} :
    Declares (command :: rest) (.error fault :: answers) name id ↔
      Declares rest answers name id := by
  simp [Declares]

/-- The functions that are found by name are those that were and those that the run has
declared. -/
theorem findFunction?_run_iff {commands : List Command} : ∀ {s : Session},
    (s.run commands).2.module.findFunction? name = some id ↔
      s.module.findFunction? name = some id ∨ Declares commands (s.run commands).1 name id := by
  induction commands with
  | nil =>
      intro s
      exact (or_iff_left (by simp [Declares])).symm
  | cons command rest ih =>
      intro s
      cases hperform : s.perform command with
      | ok done =>
          rw [run_cons_eq hperform, declares_cons_ok, ih,
            (performs_of_ok hperform).findFunction?_iff, or_assoc]
      | error fault =>
          by_cases hfault : fault = .dangling
          · subst hfault
            rw [run, hperform]
            exact (or_iff_left (by simp [Declares])).symm
          · rw [run_cons_eq_of_error hperform hfault, declares_cons_error, ih]

/-! ## Marks of functions -/

variable {n : Nat} {t : TaggedRecorder} {f : Function}

/-- A tagged recorder that is told of a function refers to it in the subprogram, and not to
nothing. -/
theorem perform_markSubprogram_tagged (hindexed : s.module.graph.Indexed)
    (hnamed : s.module.Named) (ht : s.HasRecorder n (.tagged t))
    (hf : s.module.function? id = some f) (display : String) (line : Nat) :
    ∃ s' t' subprogram,
      s.perform (.recorder n (.markSubprogram id display line)) = .ok (.done, s') ∧
      s'.HasRecorder n (.tagged t') ∧ t'.active = some subprogram ∧
      TaggedRecorder.IsScopeOf s'.module.graph id subprogram := by
  obtain ⟨slot, hslot, ht⟩ := ht
  have hscope := TaggedRecorder.isScopeOf_addSubprogram hindexed t display line
    (hnamed.findFunction?_name hf)
  have hactive := congrArg TaggedRecorder.active
    (t.recorder_addSubprogram display f.name line s.module)
  have hperform := perform_markSubprogram hslot id display line
  simp only [ht, Recorder.markSubprogram, TaggedRecorder.markSubprogram_eq hf, bind, Except.bind,
    pure, Except.pure] at hperform
  generalize t.addSubprogram display f.name line s.module = added at hscope hactive hperform
  have hslot' := getElem?_setRecorder_self (s := { s with module := added.2.2 }) hslot
    (.tagged added.2.1)
  exact ⟨_, added.2.1, added.1, hperform, ⟨_, hslot', rfl⟩, hactive, hscope⟩

/-- After every run: a declaration fails exactly if the run has declared a function of the
name already, and then nothing is written; otherwise the function gets the next number.  The
names of the functions are pairwise different, a function is found by its name and by no
other, namely the one that the declaration of the name has answered, and a tagged recorder
that is told of a function refers to that function. -/
theorem addFunction_error_iff_declares (commands : List Command)
    (workingDirectory : List UInt8) (name : String) {answers : List (Except Fault Answer)}
    (hrun : (start workingDirectory name).run commands = (answers, s)) :
    (∀ function signature,
      (∀ fault, s.perform (.addFunction function signature) = .error fault ↔
        fault = .duplicateFunction function ∧ ∃ id, Declares commands answers function id) ∧
      ((∃ id, Declares commands answers function id) →
        (Module.writeFunction function signature).on s.module =
          (.error (.duplicateFunction function), s.module) ∧
        s.Refuses (.addFunction function signature) (.duplicateFunction function)) ∧
      ((¬ ∃ id, Declares commands answers function id) →
        s.perform (.addFunction function signature) =
          .ok (.function ⟨s.module.functions.size⟩,
            { s with module := s.module.pushFunction function signature }))) ∧
    s.module.names.Nodup ∧
    (∀ function id,
      (s.module.findFunction? function = some id ↔
        ∃ f, s.module.function? id = some f ∧ f.name = function) ∧
      (s.module.findFunction? function = some id ↔ Declares commands answers function id)) ∧
    (∀ id f, s.module.function? id = some f → s.module.findFunction? f.name = some id) ∧
    ∀ n t id f display line, s.HasRecorder n (.tagged t) → s.module.function? id = some f →
      ∃ s' t' subprogram,
        s.perform (.recorder n (.markSubprogram id display line)) = .ok (.done, s') ∧
        s'.HasRecorder n (.tagged t') ∧ t'.active = some subprogram ∧
        TaggedRecorder.IsScopeOf s'.module.graph id subprogram := by
  have hnamed := named_run commands workingDirectory name
  have hindexed := indexed_run commands workingDirectory name
  have hfound {function : String} {id : FunctionId} :
      s.module.findFunction? function = some id ↔ Declares commands answers function id := by
    have hiff : ((start workingDirectory name).run commands).2.module.findFunction? function =
        some id ↔ _ := findFunction?_run_iff
    have hstart : (start workingDirectory name).module.findFunction? function ≠ some id := by
      simp [start, Module.findFunction?]
    rw [hrun, or_iff_right hstart] at hiff
    exact hiff
  rw [hrun] at hnamed hindexed
  refine ⟨?_, hnamed.nodup_names, fun function id => ⟨hnamed.findFunction?_eq_some_iff, hfound⟩,
    fun id f hf => hnamed.findFunction?_name hf, fun n t id f display line ht hf =>
      perform_markSubprogram_tagged hindexed hnamed ht hf display line⟩
  intro function signature
  cases hname : s.module.findFunction? function with
  | none =>
      have hperform := perform_addFunction signature (Module.findFunction?_eq_none_iff.mp hname)
      have hfresh : ¬ ∃ id, Declares commands answers function id := by
        rintro ⟨id, hdeclares⟩
        rw [hfound.mpr hdeclares] at hname
        cases hname
      refine ⟨?_, fun hdeclares => absurd hdeclares hfresh, fun _ => hperform⟩
      intro fault
      rw [hperform]
      exact iff_of_false (by simp) fun h => hfresh h.2
  | some id =>
      have hadd := Module.addFunction_of_found hname signature
      have hperform : s.perform (.addFunction function signature) =
          .error (.duplicateFunction function) := by
        rw [perform_addFunction_eq, hadd]
        rfl
      have hdeclares : ∃ id, Declares commands answers function id := ⟨id, hfound.mp hname⟩
      refine ⟨?_, fun _ => ⟨?_, refuses_of_error hperform (by simp)⟩,
        fun hfresh => absurd hdeclares hfresh⟩
      · intro fault
        rw [hperform, Except.error.injEq, eq_comm, and_iff_left hdeclares]
      · rw [Module.on_writeFunction, hadd]
        rfl

/-- A function is declared, and then a recorder is made. -/
def declaredOnce : List Command :=
  [.addFunction "main" ⟨.i32, []⟩, .createRecorder (.fixed .legacy) {} [0x2F, 0x61]]

/-- The name of the function is taken, another name is free, and a mark of the function refers
to it. -/
theorem addFunction_error_iff_declares_of_declaredOnce :
    ∃ answers s,
      (start [] "m").run declaredOnce = (answers, s) ∧
      s.Refuses (.addFunction "main" ⟨.void, []⟩) (.duplicateFunction "main") ∧
      (∃ s', s.perform (.addFunction "helper" ⟨.void, []⟩) = .ok (.function ⟨1⟩, s')) ∧
      s.module.findFunction? "main" = some ⟨0⟩ ∧
      ∃ s' subprogram,
        s.perform (.recorder 0 (.markSubprogram ⟨0⟩ "Main" 1)) = .ok (.done, s') ∧
        TaggedRecorder.IsScopeOf s'.module.graph ⟨0⟩ subprogram := by
  let declared := startDeclaring [] "m" "main" ⟨.i32, []⟩
  have hrun : (start [] "m").run declaredOnce =
      (.ok (.function ⟨0⟩) :: (declared.run declaredOnce.tail).1,
        (declared.run declaredOnce.tail).2) :=
    run_cons_eq (perform_start_addFunction [] "m" "main" ⟨.i32, []⟩) _
  obtain ⟨hdeclare, -, hfound, -, hmark⟩ := addFunction_error_iff_declares declaredOnce [] "m" hrun
  have hmain : Declares declaredOnce (.ok (.function ⟨0⟩) :: (declared.run declaredOnce.tail).1)
      "main" ⟨0⟩ := ⟨⟨.i32, []⟩, List.mem_cons_self⟩
  have hhelper : ¬ ∃ id, Declares declaredOnce
      (.ok (.function ⟨0⟩) :: (declared.run declaredOnce.tail).1) "helper" id := by
    rintro ⟨id, signature, hmem⟩
    have hcommand := (List.of_mem_zip hmem).1
    simp [declaredOnce] at hcommand
  have hsize : (declared.run declaredOnce.tail).2.module.functions.size = 1 := by decide +kernel
  have hschema : (declared.run declaredOnce.tail).2.schema? 0 = some .legacy := by decide +kernel
  obtain ⟨t, ht⟩ := exists_tagged_of_schema? hschema
  obtain ⟨f, hf, -⟩ := (hfound "main" ⟨0⟩).1.mp ((hfound "main" ⟨0⟩).2.mpr hmain)
  obtain ⟨s', t', subprogram, hperform, -, -, hscope⟩ := hmark 0 t ⟨0⟩ f "Main" 1 ht hf
  obtain ⟨-, -, hfresh⟩ := hdeclare "helper" ⟨.void, []⟩
  have hsecond := hfresh hhelper
  rw [hsize] at hsecond
  exact ⟨_, _, hrun, ((hdeclare "main" ⟨.void, []⟩).2.1 ⟨⟨0⟩, hmain⟩).2, ⟨_, hsecond⟩,
    (hfound "main" ⟨0⟩).2.mpr hmain, s', subprogram, hperform, hscope⟩

end Session

end DebugMetadata

import DebugMetadata.Proofs.Isolation.Recorders

/-!
# A session without a family of recorders

Beside a session runs another one that is told the same, but for what concerns one family
of recorders.  Handles apart, it keeps the same code and the same other recorders: a
command that is told to both succeeds or fails in both, and one that is told to the
family alone touches nothing that the other session has.
-/

namespace DebugMetadata

variable {R R' : NodeId → NodeId → Prop} {L L' : ListId → ListId → Prop} {root n : Nat}

/-! ## Modules that grow alike -/

namespace Module.Alike

variable {m m' : Module}

theorem size_functions (h : m.Alike R L m') : m'.functions.size = m.functions.size := by
  rw [← length_names, h.frame.names, length_names]

theorem size_blocks (h : m.Alike R L m') : m'.blocks.size = m.blocks.size := by
  rw [← length_owners, h.frame.owners, length_owners]

theorem pushFunction (h : m.Alike R L m') (name : String) (signature : Signature) :
    (m.pushFunction name signature).Alike R L (m'.pushFunction name signature) := by
  refine ⟨⟨?_, ?_, h.frame.owners⟩, h.graph⟩
  · rw [names_pushFunction, names_pushFunction, h.frame.names]
  · simp only [Module.pushFunction, h.frame.index, h.size_functions]

theorem pushBlock (h : m.Alike R L m') (function : FunctionId) (label : String) :
    (m.pushBlock function label).Alike R L (m'.pushBlock function label) := by
  refine ⟨⟨?_, h.frame.index, ?_⟩, h.graph⟩
  · rw [names_pushBlock, names_pushBlock, h.frame.names]
  · rw [owners_pushBlock, owners_pushBlock, h.frame.owners]

theorem pushInstruction (h : m.Alike R L m') (i i' : Instruction) :
    (m.pushInstruction i).Alike R L (m'.pushInstruction i') :=
  ⟨((sameFrame_pushInstruction m i).symm.trans h.frame).trans (sameFrame_pushInstruction m' i'),
    h.graph⟩

end Module.Alike

/-! ## Recorders and ledgers -/

/-- The recorder and its entry, handles apart. -/
structure SlotAlike (R : NodeId → NodeId → Prop) (L : ListId → ListId → Prop)
    (slot : RecorderSlot) (entry : LedgerEntry) (slot' : RecorderSlot) (entry' : LedgerEntry) :
    Prop where
  choice : slot'.choice = slot.choice
  recorder : slot.recorder.Alike R L slot'.recorder
  locations : List.Forall₂ R entry.locations entry'.locations

theorem SlotAlike.mono {slot slot' : RecorderSlot} {entry entry' : LedgerEntry}
    (h : SlotAlike R L slot entry slot' entry') (hR : ∀ id id', R id id' → R' id id')
    (hL : ∀ list list', L list list' → L' list list') : SlotAlike R' L' slot entry slot' entry' :=
  ⟨h.choice, h.recorder.mono hR hL, h.locations.imp hR⟩

/-- The first recorders are the second ones without those of a family, whose lists are
related to none. -/
structure KeepsOthers (root : Nat) (R : NodeId → NodeId → Prop) (L : ListId → ListId → Prop)
    (slots : Array RecorderSlot) (ledger : Ledger) (slots' : Array RecorderSlot)
    (ledger' : Ledger) : Prop where
  size : ledger.entries.size = slots.size
  size' : ledger'.entries.size = slots'.size
  place : slots.size = ledger'.place root slots'.size
  kept : ∀ {n slot' entry'}, slots'[n]? = some slot' → ledger'.entries[n]? = some entry' →
    entry'.family ≠ root → ∃ slot entry, slots[ledger'.place root n]? = some slot ∧
      ledger.entries[ledger'.place root n]? = some entry ∧ SlotAlike R L slot entry slot' entry'
  separate : ∀ {n slot' t}, slots'[n]? = some slot' → slot'.recorder = .tagged t →
    ledger'.family? n = some root → ∀ list, ¬ L list t.subprograms

namespace KeepsOthers

variable {slots slots' : Array RecorderSlot} {ledger ledger' : Ledger} {slot slot' : RecorderSlot}
  {r r' : Recorder} {m m' : Module} {command : RecorderCommand}

theorem exists_entry (h : KeepsOthers root R L slots ledger slots' ledger')
    (hslot' : slots'[n]? = some slot') : ∃ entry', ledger'.entries[n]? = some entry' := by
  have hlt : n < ledger'.entries.size := h.size' ▸ (Array.getElem?_eq_some_iff.mp hslot').1
  exact ⟨_, Array.getElem?_eq_getElem hlt⟩

/-- The lists of a family stay apart when one of its recorders gets a list that is. -/
private theorem separate_modify (h : KeepsOthers root R L slots ledger slots' ledger')
    {new' : Recorder} (hnew : ledger'.family? n = some root → ∀ t, new' = .tagged t →
      ∀ list, ¬ L list t.subprograms) {k : Nat} {t : TaggedRecorder}
    (hslot' : (slots'.modify n ({ · with recorder := new' }))[k]? = some slot')
    (ht : slot'.recorder = .tagged t)
    (hroot : (ledger'.add n r' m' command).family? k = some root) (list : ListId) :
    ¬ L list t.subprograms := by
  rw [Ledger.family?_add] at hroot
  rw [Array.getElem?_modify] at hslot'
  by_cases hk : n = k
  · rw [if_pos hk] at hslot'
    obtain ⟨old', -, rfl⟩ := Option.map_eq_some_iff.mp hslot'
    exact hnew (hk ▸ hroot) t ht list
  · rw [if_neg hk] at hslot'
    exact h.separate hslot' ht hroot list

private theorem separate_push (hsize : ledger'.entries.size = slots'.size)
    (hold : ∀ {n slot' t}, slots'[n]? = some slot' → slot'.recorder = .tagged t →
      ledger'.family? n = some root → ∀ list, ¬ L list t.subprograms) {family : Nat}
    (hnew : family = root → ∀ t, slot'.recorder = .tagged t → ∀ list, ¬ L list t.subprograms)
    {k : Nat} {slot₁ : RecorderSlot} {t : TaggedRecorder}
    (hslot₁ : (slots'.push slot')[k]? = some slot₁) (ht : slot₁.recorder = .tagged t)
    (hroot : (ledger'.push family).family? k = some root) (list : ListId) :
    ¬ L list t.subprograms := by
  rw [Array.getElem?_push, ← hsize] at hslot₁
  by_cases hk : k = ledger'.entries.size
  · rw [if_pos hk] at hslot₁
    cases hslot₁
    rw [hk, Ledger.family?_push_self] at hroot
    exact hnew (Option.some.inj hroot) t ht list
  · rw [if_neg hk] at hslot₁
    rw [Ledger.family?_push_of_ne hk] at hroot
    exact hold hslot₁ ht hroot list

/-- A recorder that is not of the family is told something in both sessions. -/
theorem tell (h : KeepsOthers root R L slots ledger slots' ledger')
    (hR : ∀ id id', R id id' → R' id id') (hfamily : ledger'.family? n ≠ some root)
    {new new' : Recorder} (hnew : new.Alike R' L new')
    (hlocation : Option.Rel R' (r.location? m command) (r'.location? m' command)) :
    KeepsOthers root R' L
      (slots.modify (ledger'.place root n) ({ · with recorder := new }))
      (ledger.add (ledger'.place root n) r m command)
      (slots'.modify n ({ · with recorder := new' })) (ledger'.add n r' m' command) := by
  refine ⟨?_, ?_, ?_, ?_, h.separate_modify fun hroot => absurd hroot hfamily⟩
  · rw [Ledger.size_add, Array.size_modify, h.size]
  · rw [Ledger.size_add, Array.size_modify, h.size']
  · rw [Array.size_modify, Array.size_modify, Ledger.place_add, h.place]
  · intro k slot' entry' hslot' hentry' hkept
    rw [Ledger.place_add]
    rw [Array.getElem?_modify] at hslot'
    rw [Ledger.getElem?_add] at hentry'
    rw [Ledger.getElem?_add, Array.getElem?_modify]
    by_cases hk : n = k
    · subst hk
      rw [if_pos rfl] at hslot' hentry' ⊢
      obtain ⟨old', hold', rfl⟩ := Option.map_eq_some_iff.mp hslot'
      obtain ⟨before', hbefore', rfl⟩ := Option.map_eq_some_iff.mp hentry'
      obtain ⟨old, before, hold, hbefore, halike⟩ := h.kept hold' hbefore' hkept
      rw [if_pos rfl, hold, hbefore]
      refine ⟨_, _, rfl, rfl, halike.choice, hnew, ?_⟩
      refine List.rel_append (halike.locations.imp hR) ?_
      rcases rel_cases hlocation with ⟨hnone, hnone'⟩ | ⟨id, id', hid, hid', hrel⟩
      · rw [hnone, hnone']
        exact .nil
      · rw [hid, hid']
        exact .cons hrel .nil
    · rw [if_neg hk] at hslot' hentry'
      have hkept' : ledger'.family? k ≠ some root := by
        rw [Ledger.family?, hentry', Option.map_some, ne_eq, Option.some.injEq]
        exact hkept
      have hplaces : ledger'.place root n ≠ ledger'.place root k :=
        fun heq => hk ((Ledger.place_inj hfamily hkept').mp heq)
      rw [if_neg hplaces, if_neg hplaces]
      obtain ⟨slot, entry, hslot, hentry, halike⟩ := h.kept hslot' hentry' hkept
      exact ⟨slot, entry, hslot, hentry, halike.mono hR fun _ _ hlist => hlist⟩

/-- A recorder that is not of the family is made in both sessions. -/
theorem push (h : KeepsOthers root R L slots ledger slots' ledger')
    (hR : ∀ id id', R id id' → R' id id') (hL : ∀ list list', L list list' → L' list list')
    (hseparate : ∀ {n slot' t}, slots'[n]? = some slot' → slot'.recorder = .tagged t →
      ledger'.family? n = some root → ∀ list, ¬ L' list t.subprograms)
    (hchoice : slot'.choice = slot.choice) (halike : slot.recorder.Alike R' L' slot'.recorder)
    {family' : Nat} (hfamily' : family' ≠ root) (family : Nat) :
    KeepsOthers root R' L' (slots.push slot) (ledger.push family) (slots'.push slot')
      (ledger'.push family') := by
  have hlast : (ledger'.push family').family? slots'.size ≠ some root := by
    rw [← h.size', Ledger.family?_push_self, ne_eq, Option.some.injEq]
    exact hfamily'
  have hplace {k : Nat} (hk : k ≤ slots'.size) :
      (ledger'.push family').place root k = ledger'.place root k :=
    Ledger.place_push (h.size' ▸ hk) family'
  refine ⟨?_, ?_, ?_, ?_,
    separate_push h.size' hseparate fun hroot => absurd hroot hfamily'⟩
  · rw [Ledger.size_push, Array.size_push, h.size]
  · rw [Ledger.size_push, Array.size_push, h.size']
  · rw [Array.size_push, Array.size_push, Ledger.place_succ, if_pos hlast,
      hplace (Nat.le_refl _), h.place]
  · intro k slot₁ entry₁ hslot₁ hentry₁ hkept
    rw [Array.getElem?_push] at hslot₁
    rw [Ledger.getElem?_push, h.size'] at hentry₁
    rw [Ledger.getElem?_push, Array.getElem?_push, h.size]
    by_cases hk : k = slots'.size
    · subst hk
      rw [if_pos rfl] at hslot₁ hentry₁
      cases hslot₁
      cases hentry₁
      rw [hplace (Nat.le_refl _), ← h.place, if_pos rfl, if_pos rfl]
      exact ⟨slot, _, rfl, rfl, hchoice, halike, .nil⟩
    · rw [if_neg hk] at hslot₁ hentry₁
      have hlt := (Array.getElem?_eq_some_iff.mp hslot₁).1
      obtain ⟨slot, entry, hslot, hentry, hsame⟩ := h.kept hslot₁ hentry₁ hkept
      have hne : ledger'.place root k ≠ slots.size :=
        Nat.ne_of_lt (Array.getElem?_eq_some_iff.mp hslot).1
      rw [hplace (Nat.le_of_lt hlt), if_neg hne, if_neg hne]
      exact ⟨slot, entry, hslot, hentry, hsame.mono hR hL⟩

/-- A recorder of the family is told something. -/
theorem tellFamily (h : KeepsOthers root R L slots ledger slots' ledger')
    (hfamily : ledger'.family? n = some root) {new' : Recorder}
    (hnew : ∀ t, new' = .tagged t → ∀ list, ¬ L list t.subprograms) :
    KeepsOthers root R L slots ledger (slots'.modify n ({ · with recorder := new' }))
      (ledger'.add n r' m' command) := by
  refine ⟨h.size, ?_, ?_, ?_, h.separate_modify fun _ => hnew⟩
  · rw [Ledger.size_add, Array.size_modify, h.size']
  · rw [Array.size_modify, Ledger.place_add, h.place]
  · intro k slot' entry' hslot' hentry' hkept
    rw [Ledger.place_add]
    rw [Array.getElem?_modify] at hslot'
    rw [Ledger.getElem?_add] at hentry'
    by_cases hk : n = k
    · subst hk
      rw [if_pos rfl] at hentry'
      obtain ⟨before', hbefore', rfl⟩ := Option.map_eq_some_iff.mp hentry'
      rw [Ledger.family?, hbefore', Option.map_some, Option.some.injEq] at hfamily
      exact absurd hfamily hkept
    · rw [if_neg hk] at hslot' hentry'
      exact h.kept hslot' hentry' hkept

/-- A recorder of the family is made. -/
theorem pushFamily (h : KeepsOthers root R L slots ledger slots' ledger')
    (hnew : ∀ t, slot'.recorder = .tagged t → ∀ list, ¬ L list t.subprograms) :
    KeepsOthers root R L slots ledger (slots'.push slot') (ledger'.push root) := by
  have hlast : (ledger'.push root).family? slots'.size = some root := by
    rw [← h.size', Ledger.family?_push_self]
  have hplace {k : Nat} (hk : k ≤ slots'.size) :
      (ledger'.push root).place root k = ledger'.place root k :=
    Ledger.place_push (h.size' ▸ hk) root
  refine ⟨h.size, ?_, ?_, ?_, separate_push h.size' h.separate fun _ => hnew⟩
  · rw [Ledger.size_push, Array.size_push, h.size']
  · rw [Array.size_push, Ledger.place_succ, if_neg (not_not_intro hlast), Nat.add_zero,
      hplace (Nat.le_refl _), h.place]
  · intro k slot₁ entry₁ hslot₁ hentry₁ hkept
    rw [Array.getElem?_push] at hslot₁
    rw [Ledger.getElem?_push, h.size'] at hentry₁
    by_cases hk : k = slots'.size
    · rw [if_pos hk] at hentry₁
      cases hentry₁
      exact absurd rfl hkept
    · rw [if_neg hk] at hslot₁ hentry₁
      rw [hplace (Nat.le_of_lt (Array.getElem?_eq_some_iff.mp hslot₁).1)]
      exact h.kept hslot₁ hentry₁ hkept

end KeepsOthers

end DebugMetadata

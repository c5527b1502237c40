import CoupledModels.SortedMap
import CoupledModels.Proofs.Outcome
import Mathlib.Data.List.Induction
import Mathlib.Data.List.Nodup
import Mathlib.Data.List.Pairwise

/-!
# Entries of sorted maps

Reading a map after a key has been set needs no order: the entry that is found first is the one that
was set.  The order matters where the entries themselves are walked: in an ascending map each key
has one entry, and setting a key to the value that it has changes nothing.
-/

namespace CoupledModels.SortedMap

variable {κ α : Type} [Ord κ]

theorem mem_insertEntry {k : κ} {a : α} {entries : List (κ × α)} {e : κ × α}
    (h : e ∈ insertEntry k a entries) : e = (k, a) ∨ e ∈ entries := by
  induction entries with
  | nil => simpa [insertEntry] using h
  | cons entry entries ih =>
      obtain ⟨k', a'⟩ := entry
      unfold insertEntry at h
      split at h
      · exact List.mem_cons.mp h
      · rcases List.mem_cons.mp h with h | h
        · exact .inl h
        · exact .inr (List.mem_cons_of_mem _ h)
      · rcases List.mem_cons.mp h with rfl | h
        · exact .inr List.mem_cons_self
        · exact (ih h).imp_right (List.mem_cons_of_mem _)

/-- The map of a list has no entries but those of the list. -/
theorem mem_entries_ofList {es : List (κ × α)} {e : κ × α} (h : e ∈ (ofList es).entries) :
    e ∈ es := by
  have hfold : ∀ (es : List (κ × α)) (m : SortedMap κ α),
      e ∈ (es.foldl (fun m e => m.insert e.1 e.2) m).entries → e ∈ m.entries ∨ e ∈ es := by
    intro es
    induction es with
    | nil => exact fun m h => .inl h
    | cons x es ih =>
        intro m h
        rcases ih _ h with h | h
        · rcases mem_insertEntry h with rfl | h
          · exact .inr List.mem_cons_self
          · exact .inl h
        · exact .inr (List.mem_cons_of_mem _ h)
  rcases hfold es empty h with h | h
  · simp [empty] at h
  · exact h

theorem mem_values_ofList {es : List (κ × α)} {a : α} (h : a ∈ (ofList es).values) :
    ∃ k, (k, a) ∈ es := by
  obtain ⟨⟨k, a'⟩, he, rfl⟩ := List.mem_map.mp h
  exact ⟨k, mem_entries_ofList he⟩

/-! ## Reading -/

section Reading

variable [BEq κ] [LawfulBEq κ] {m : SortedMap κ α} {k k' : κ} {a : α}

omit [Ord κ] in
theorem mem_entries_of_get? (h : m.get? k = some a) : (k, a) ∈ m.entries := by
  obtain ⟨l, l', heq, -⟩ := List.lookup_eq_some_iff.mp h
  rw [heq]
  simp

variable [Std.LawfulEqOrd κ]

theorem lookup_insertEntry (k : κ) (a : α) (entries : List (κ × α)) (k' : κ) :
    (insertEntry k a entries).lookup k' = if k' == k then some a else entries.lookup k' := by
  induction entries with
  | nil =>
      simp only [insertEntry, List.lookup_cons, List.lookup_nil]
      cases k' == k <;> rfl
  | cons entry entries ih =>
      obtain ⟨l, b⟩ := entry
      unfold insertEntry
      split
      · rw [List.lookup_cons]
        cases k' == k <;> rfl
      · -- The entry that is replaced has the key that is set.
        rename_i heq
        obtain rfl : k = l := Std.LawfulEqOrd.eq_of_compare heq
        simp only [List.lookup_cons]
        cases k' == k <;> rfl
      · rename_i hgt
        have hne : l ≠ k := by
          rintro rfl
          have hself : compare l l = .eq := Std.ReflCmp.compare_self
          rw [hself] at hgt
          cases hgt
        rw [List.lookup_cons, List.lookup_cons, ih]
        by_cases hl : k' = l
        · subst hl
          rw [beq_self_eq_true, beq_false_of_ne hne]
          rfl
        · rw [beq_false_of_ne hl]

/-- A key that has been set has its new value, and any other key the value that it had. -/
theorem get?_insert (m : SortedMap κ α) (k : κ) (a : α) (k' : κ) :
    (m.insert k a).get? k' = if k' == k then some a else m.get? k' :=
  lookup_insertEntry k a m.entries k'

omit [BEq κ] [LawfulBEq κ] [Std.LawfulEqOrd κ] in
theorem ofList_append_singleton (es : List (κ × α)) (e : κ × α) :
    ofList (es ++ [e]) = (ofList es).insert e.1 e.2 := by
  simp [ofList, List.foldl_append]

/-- Of several entries with one key the last one counts. -/
theorem get?_ofList (es : List (κ × α)) (k : κ) : (ofList es).get? k = es.reverse.lookup k := by
  induction es using List.reverseRecOn with
  | nil => rfl
  | append_singleton es e ih =>
      rw [ofList_append_singleton, get?_insert, ih, List.reverse_append]
      rw [List.reverse_singleton, List.singleton_append, List.lookup_cons]
      cases k == e.1 <;> rfl

/-- A key with only one value among the entries has this value. -/
theorem get?_ofList_of_mem {es : List (κ × α)} (hmem : (k, a) ∈ es)
    (hsame : ∀ b, (k, b) ∈ es → b = a) : (ofList es).get? k = some a := by
  rw [get?_ofList]
  cases hlookup : es.reverse.lookup k with
  | none =>
      have hne := List.lookup_eq_none_iff.mp hlookup (k, a) (List.mem_reverse.mpr hmem)
      simp at hne
  | some b =>
      have hb : (k, b) ∈ es.reverse := mem_entries_of_get? (m := ⟨es.reverse⟩) hlookup
      rw [hsame b (List.mem_reverse.mp hb)]

/-- A map that is computed key by key has at each key what was computed there. -/
theorem get?_ofList_of_mapM {ε : Type} {f : κ → Except ε α} {keys : List κ} {es : List (κ × α)}
    (h : keys.mapM (fun k => do return (k, ← f k)) = .ok es) (hk : k ∈ keys) :
    ∃ a, f k = .ok a ∧ (ofList es).get? k = some a := by
  have hall := forall₂_of_mapM h
  have hentry : ∀ (l : κ) (e : κ × α), (do return (l, ← f l)) = Except.ok e →
      e.1 = l ∧ f l = .ok e.2 := by
    intro l e he
    obtain ⟨a, ha, heq⟩ := exists_of_bind_eq_ok he
    cases heq
    exact ⟨rfl, ha⟩
  obtain ⟨⟨l, a⟩, hmem, hstep⟩ := exists_right_of_forall₂ hall hk
  obtain ⟨rfl, ha⟩ := hentry k _ hstep
  refine ⟨a, ha, get?_ofList_of_mem hmem fun b hb => ?_⟩
  obtain ⟨l', -, hstep'⟩ := exists_left_of_forall₂ hall hb
  obtain ⟨rfl, hb'⟩ := hentry l' _ hstep'
  exact Except.ok.inj (hb'.symm.trans ha)

/-- A map that is computed entry by entry has at each key what was computed for the last entry. -/
theorem get?_ofList_of_find? {β ε : Type} {key : β → κ} {f : β → Except ε α} {bs : List β}
    {es : List (κ × α)} (h : bs.mapM (fun b => do return (key b, ← f b)) = .ok es) {last : β}
    (hlast : bs.reverse.find? (fun b => key b == k) = some last) :
    ∃ a, f last = .ok a ∧ (ofList es).get? k = some a := by
  have hall : List.Forall₂ (fun b (e : κ × α) => e.1 = key b ∧ f b = .ok e.2)
      bs.reverse es.reverse := by
    refine List.rel_reverse ((forall₂_of_mapM h).imp fun b e he => ?_)
    obtain ⟨a, ha, heq⟩ := exists_of_bind_eq_ok he
    cases heq
    exact ⟨rfl, ha⟩
  rw [get?_ofList]
  generalize bs.reverse = bs' at hall hlast
  generalize es.reverse = es' at hall
  induction hall with
  | nil => cases hlast
  | @cons b e bs es hstep _ ih =>
      obtain ⟨l, a⟩ := e
      obtain ⟨rfl, ha⟩ := hstep
      rw [List.find?_cons] at hlast
      by_cases hkey : key b = k
      · rw [beq_iff_eq.mpr hkey] at hlast
        cases hlast
        exact ⟨a, ha, by simp [hkey]⟩
      · rw [beq_false_of_ne hkey] at hlast
        rw [List.lookup_cons, beq_false_of_ne (Ne.symm hkey)]
        exact ih hlast

end Reading

omit [Ord κ] in
theorem mapEntries_id (m : SortedMap κ α) : m.mapEntries (fun _ a => a) = m := by
  simp [mapEntries]

/-! ## Ascending maps -/

/-- Every key is smaller than all keys after it. -/
def Ascending (m : SortedMap κ α) : Prop :=
  m.entries.Pairwise fun e f => compare e.1 f.1 = .lt

instance (m : SortedMap κ α) : Decidable m.Ascending :=
  inferInstanceAs (Decidable (List.Pairwise _ _))

theorem ascending_empty : (empty : SortedMap κ α).Ascending :=
  List.Pairwise.nil

namespace Ascending

variable [Std.TransOrd κ] {m : SortedMap κ α}

theorem insert (h : m.Ascending) (k : κ) (a : α) : (m.insert k a).Ascending := by
  obtain ⟨entries⟩ := m
  unfold Ascending SortedMap.insert at *
  simp only at h ⊢
  induction entries with
  | nil => exact List.pairwise_singleton _ _
  | cons entry entries ih =>
      obtain ⟨l, b⟩ := entry
      obtain ⟨hl, hentries⟩ := List.pairwise_cons.mp h
      unfold insertEntry
      split
      · rename_i hlt
        refine List.pairwise_cons.mpr ⟨fun e he => ?_, h⟩
        rcases List.mem_cons.mp he with rfl | he
        · exact hlt
        · exact Std.TransCmp.lt_trans hlt (hl e he)
      · rename_i heq
        refine List.pairwise_cons.mpr ⟨fun e he => ?_, hentries⟩
        exact Std.TransCmp.lt_of_eq_of_lt heq (hl e he)
      · rename_i hgt
        refine List.pairwise_cons.mpr ⟨fun e he => ?_, ih hentries⟩
        rcases mem_insertEntry he with rfl | he
        · exact Std.OrientedCmp.lt_of_gt hgt
        · exact hl e he

theorem nodup_keys (h : m.Ascending) : (m.entries.map Prod.fst).Nodup := by
  refine List.pairwise_map.mpr (List.Pairwise.imp (fun {e f} hlt heq => ?_) h)
  rw [heq] at hlt
  have hself : compare f.1 f.1 = .eq := Std.ReflCmp.compare_self
  rw [hself] at hlt
  cases hlt

omit [Std.TransOrd κ] in
theorem mapEntries {β : Type} (h : m.Ascending) (f : κ → α → β) : (m.mapEntries f).Ascending :=
  List.pairwise_map.mpr h

variable [BEq κ] [LawfulBEq κ] [Std.LawfulEqOrd κ]

/-- Each key has one entry, so reading the key gives its value. -/
theorem get?_of_mem (h : m.Ascending) {k : κ} {a : α} (hmem : (k, a) ∈ m.entries) :
    m.get? k = some a := by
  obtain ⟨entries⟩ := m
  unfold Ascending at h
  unfold get?
  simp only at h hmem ⊢
  induction entries with
  | nil => cases hmem
  | cons entry entries ih =>
      obtain ⟨hentry, hentries⟩ := List.pairwise_cons.mp h
      rcases List.mem_cons.mp hmem with rfl | hmem
      · simp
      · have hne : k ≠ entry.1 := by
          rintro rfl
          have hlt := hentry _ hmem
          simp at hlt
        rw [List.lookup_cons, beq_false_of_ne hne]
        exact ih hentries hmem

/-- Setting a key to the value that it has changes nothing. -/
theorem insert_of_get? (h : m.Ascending) {k : κ} {a : α} (hget : m.get? k = some a) :
    m.insert k a = m := by
  have hmem := mem_entries_of_get? hget
  obtain ⟨entries⟩ := m
  unfold Ascending at h
  unfold SortedMap.insert
  simp only [mk.injEq] at h hmem ⊢
  clear hget
  induction entries with
  | nil => cases hmem
  | cons entry entries ih =>
      obtain ⟨l, b⟩ := entry
      obtain ⟨hentry, hentries⟩ := List.pairwise_cons.mp h
      unfold insertEntry
      rcases List.mem_cons.mp hmem with heq | hmem
      · cases heq
        simp
      -- The key stands further back, so the first entry has a smaller one.
      · have hgt : compare k l = .gt := Std.OrientedCmp.gt_of_lt (hentry _ hmem)
        rw [hgt]
        simp only
        rw [ih hentries hmem]

/-- Ascending maps with the same values are the same map. -/
theorem ext {m' : SortedMap κ α} (h : m.Ascending) (h' : m'.Ascending)
    (hget : ∀ k, m.get? k = m'.get? k) : m = m' := by
  have hmem : ∀ e, e ∈ m.entries ↔ e ∈ m'.entries := by
    rintro ⟨k, a⟩
    constructor
    · intro he
      exact mem_entries_of_get? ((hget k).symm.trans (h.get?_of_mem he))
    · intro he
      exact mem_entries_of_get? ((hget k).trans (h'.get?_of_mem he))
  have hperm : m.entries.Perm m'.entries :=
    (List.perm_ext_iff_of_nodup (List.Nodup.of_map _ h.nodup_keys)
      (List.Nodup.of_map _ h'.nodup_keys)).mpr hmem
  have heq : m.entries = m'.entries := by
    refine hperm.eq_of_pairwise (fun e f _ _ hlt hgt => ?_) h h'
    rw [Std.OrientedCmp.gt_of_lt hgt] at hlt
    cases hlt
  exact congrArg mk heq

end Ascending

variable [Std.TransOrd κ]

theorem ascending_ofList (es : List (κ × α)) : (ofList es).Ascending := by
  induction es using List.reverseRecOn with
  | nil => exact ascending_empty
  | append_singleton es e ih =>
      rw [ofList_append_singleton]
      exact ih.insert e.1 e.2

/-- A key behind all others is entered at the end. -/
theorem insertEntry_of_lt {k : κ} {a : α} {entries : List (κ × α)}
    (h : ∀ e ∈ entries, compare e.1 k = .lt) : insertEntry k a entries = entries ++ [(k, a)] := by
  induction entries with
  | nil => rfl
  | cons entry entries ih =>
      obtain ⟨hentry, hentries⟩ := List.forall_mem_cons.mp h
      have hgt : compare k entry.1 = .gt := Std.OrientedCmp.gt_of_lt hentry
      simp only [insertEntry, hgt, ih hentries, List.cons_append]

/-- A map is made anew of its entries. -/
theorem ofList_entries {m : SortedMap κ α} (h : m.Ascending) : ofList m.entries = m := by
  obtain ⟨entries⟩ := m
  unfold Ascending at h
  simp only at h ⊢
  induction entries using List.reverseRecOn with
  | nil => rfl
  | append_singleton entries e ih =>
      obtain ⟨hentries, -, hlast⟩ := List.pairwise_append.mp h
      have hlt : ∀ f ∈ entries, compare f.1 e.1 = .lt := fun f hf =>
        hlast f hf e (List.mem_singleton_self e)
      rw [ofList_append_singleton, ih hentries, SortedMap.insert, insertEntry_of_lt hlt]

end CoupledModels.SortedMap

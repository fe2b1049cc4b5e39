import Mathlib.Tactic

/-! Ordered tables: finite maps kept as a list of entries in strictly increasing
key order, the order being a field, so that iteration is in key order by
construction. Inserting replaces the entry of an equal key, so that a list of entries
is a table with all of them when its keys are distinct. -/

namespace Foundation

/-- Entries in strictly increasing key order. -/
@[ext] structure Table (κ ν : Type*) [LinearOrder κ] where
  entries : List (κ × ν)
  sorted : entries.Pairwise fun a b => a.1 < b.1

namespace Table

variable {κ ν : Type*} [LinearOrder κ]

def empty : Table κ ν := ⟨[], .nil⟩

instance : Inhabited (Table κ ν) := ⟨empty⟩

def keys (t : Table κ ν) : List κ := t.entries.map Prod.fst

def values (t : Table κ ν) : List ν := t.entries.map Prod.snd

def len (t : Table κ ν) : ℕ := t.entries.length

def get (t : Table κ ν) (k : κ) : Option ν := (t.entries.find? fun e => e.1 = k).map Prod.snd

def insert (t : Table κ ν) (k : κ) (v : ν) : Table κ ν where
  entries := t.entries.filter (fun e => e.1 < k) ++ (k, v) :: t.entries.filter (fun e => k < e.1)
  sorted := by
    rw [List.pairwise_append, List.pairwise_cons]
    refine ⟨t.sorted.filter _, ⟨?_, t.sorted.filter _⟩, ?_⟩
    · intro e he; simpa using (List.mem_filter.mp he).2
    · intro a ha b hb
      have hak : a.1 < k := by simpa using (List.mem_filter.mp ha).2
      rcases List.mem_cons.mp hb with rfl | hb
      · exact hak
      · exact hak.trans (by simpa using (List.mem_filter.mp hb).2)

def remove (t : Table κ ν) (k : κ) : Table κ ν where
  entries := t.entries.filter fun e => e.1 ≠ k
  sorted := t.sorted.filter _

/-- Keep the entries that satisfy the predicate. -/
def retain (t : Table κ ν) (p : κ → ν → Bool) : Table κ ν where
  entries := t.entries.filter fun e => p e.1 e.2
  sorted := t.sorted.filter _

/-- Remove keys one after the other; unknown and repeated keys are skipped. -/
def removeAll (t : Table κ ν) (ks : List κ) : Table κ ν := ks.foldl remove t

@[simp] theorem empty_entries : (empty : Table κ ν).entries = [] := rfl

theorem mem_insert {t : Table κ ν} {k : κ} {v : ν} {e : κ × ν} :
    e ∈ (t.insert k v).entries ↔ e = (k, v) ∨ e ∈ t.entries ∧ e.1 ≠ k := by
  simp only [insert, List.mem_append, List.mem_filter, List.mem_cons, decide_eq_true_eq]
  constructor
  · rintro (⟨he, hlt⟩ | rfl | ⟨he, hlt⟩)
    · exact .inr ⟨he, hlt.ne⟩
    · exact .inl rfl
    · exact .inr ⟨he, hlt.ne'⟩
  · rintro (rfl | ⟨he, hne⟩)
    · exact .inr (.inl rfl)
    · rcases lt_or_gt_of_ne hne with h | h
      · exact .inl ⟨he, h⟩
      · exact .inr (.inr ⟨he, h⟩)

/-- A key above all others is added at the end. -/
theorem insert_of_lt {t : Table κ ν} {k : κ} (h : ∀ e ∈ t.entries, e.1 < k) (v : ν) :
    (t.insert k v).entries = t.entries ++ [(k, v)] := by
  have below : t.entries.filter (fun e => e.1 < k) = t.entries :=
    List.filter_eq_self.mpr fun e he => by simpa using h e he
  have above : t.entries.filter (fun e => k < e.1) = [] :=
    List.filter_eq_nil_iff.mpr fun e he => by simpa using (h e he).le
  simp [insert, below, above]

theorem removeAll_entries (t : Table κ ν) (ks : List κ) :
    (t.removeAll ks).entries = t.entries.filter fun e => e.1 ∉ ks := by
  induction ks generalizing t with
  | nil => simp [removeAll]
  | cons k ks ih =>
    have hcons : t.removeAll (k :: ks) = (t.remove k).removeAll ks := rfl
    rw [hcons, ih]
    simp only [remove, List.filter_filter, List.mem_cons, not_or]
    congr 1
    funext e
    by_cases h : e.1 = k <;> simp [h]

/-- Removing the keys of a table leaves nothing. -/
theorem removeAll_keys (t : Table κ ν) :
    (t.removeAll t.keys).entries = [] := by
  rw [removeAll_entries, List.filter_eq_nil_iff]
  intro e he
  have : e.1 ∈ t.keys := List.mem_map_of_mem he
  simpa using this

theorem len_insert_le (t : Table κ ν) (k : κ) (v : ν) : (t.insert k v).len ≤ t.len + 1 := by
  have hsplit := List.length_eq_length_filter_add (l := t.entries) fun e => e.1 < k
  have habove : (t.entries.filter fun e => k < e.1).length ≤
      (t.entries.filter fun e => !decide (e.1 < k)).length := by
    refine (List.monotone_filter_right t.entries fun e he => ?_).length_le
    have hlt : k < e.1 := by simpa using he
    simpa using hlt.le
  rw [len, len, insert, List.length_append, List.length_cons]
  omega

theorem len_removeAll_le (t : Table κ ν) (ks : List κ) : (t.removeAll ks).len ≤ t.len := by
  rw [len, len, removeAll_entries]
  exact List.length_filter_le ..

/-- Two entries of one key are the same entry. -/
theorem entry_unique {t : Table κ ν} {k : κ} {v w : ν} (hv : (k, v) ∈ t.entries)
    (hw : (k, w) ∈ t.entries) : v = w := by
  obtain ⟨i, hi, hvi⟩ := List.getElem_of_mem hv
  obtain ⟨j, hj, hwj⟩ := List.getElem_of_mem hw
  have hlt := List.pairwise_iff_getElem.mp t.sorted
  rcases lt_trichotomy i j with h | h | h
  · simpa [hvi, hwj] using hlt i j hi hj h
  · subst h; simpa using hvi.symm.trans hwj
  · simpa [hvi, hwj] using hlt j i hj hi h

theorem get_eq_some_iff {t : Table κ ν} {k : κ} {v : ν} :
    t.get k = some v ↔ (k, v) ∈ t.entries := by
  simp only [get, Option.map_eq_some_iff]
  constructor
  · rintro ⟨⟨k', v'⟩, hfind, rfl⟩
    have hk : k' = k := by simpa using List.find?_some hfind
    exact hk ▸ List.mem_of_find?_eq_some hfind
  · intro hmem
    cases hf : t.entries.find? fun e => e.1 = k with
    | none => exact absurd (List.find?_eq_none.mp hf _ hmem) (by simp)
    | some e =>
      obtain ⟨k', v'⟩ := e
      have hk : k' = k := by simpa using List.find?_some hf
      subst hk
      exact ⟨_, rfl, entry_unique (List.mem_of_find?_eq_some hf) hmem⟩

theorem get_eq_none_iff {t : Table κ ν} {k : κ} : t.get k = none ↔ k ∉ t.keys := by
  rw [Option.eq_none_iff_forall_ne_some]
  constructor
  · intro hnone hk
    obtain ⟨e, he, rfl⟩ := List.mem_map.mp hk
    exact hnone e.2 (get_eq_some_iff.mpr he)
  · intro hk v hv
    exact hk (List.mem_map.mpr ⟨(k, v), get_eq_some_iff.mp hv, rfl⟩)

theorem keys_nodup (t : Table κ ν) : t.keys.Nodup := by
  refine List.Pairwise.imp (fun hlt => ne_of_lt hlt) ?_
  exact List.pairwise_map.mpr t.sorted

theorem get_insert_self (t : Table κ ν) (k : κ) (v : ν) : (t.insert k v).get k = some v :=
  get_eq_some_iff.mpr (mem_insert.mpr (.inl rfl))

theorem get_insert_of_ne {t : Table κ ν} {k k' : κ} (h : k' ≠ k) (v : ν) :
    (t.insert k v).get k' = t.get k' := by
  apply Option.ext
  intro w
  rw [get_eq_some_iff, get_eq_some_iff, mem_insert]
  simp [h]

/-! ### Lists of entries -/

/-- The table of entries inserted in order, where a later one replaces one of its key. -/
def insertAll (t : Table κ ν) (es : List (κ × ν)) : Table κ ν :=
  es.foldl (fun t e => t.insert e.1 e.2) t

theorem insertAll_cons (t : Table κ ν) (e : κ × ν) (es : List (κ × ν)) :
    t.insertAll (e :: es) = (t.insert e.1 e.2).insertAll es := rfl

theorem len_insert_of_get_eq_none {t : Table κ ν} {k : κ} (h : t.get k = none) (v : ν) :
    (t.insert k v).len = t.len + 1 := by
  have hsplit := List.length_eq_length_filter_add (l := t.entries) fun e => e.1 < k
  have habove : (t.entries.filter fun e => k < e.1) =
      t.entries.filter fun e => !decide (e.1 < k) := by
    refine List.filter_congr fun e he => ?_
    have hne : e.1 ≠ k := by
      rintro rfl
      rw [get_eq_some_iff.mpr he] at h
      cases h
    rw [Bool.eq_iff_iff]
    simpa using ⟨le_of_lt, fun hle => lt_of_le_of_ne hle hne.symm⟩
  rw [len, len, insert, List.length_append, List.length_cons, habove]
  omega

/-- The entry is added under a key that was free, and all others are left as they were. -/
structure Added (t t' : Table κ ν) (k : κ) (v : ν) : Prop where
  free : t.get k = none
  get : t'.get k = some v
  others : ∀ k', k' ≠ k → t'.get k' = t.get k'
  len : t'.len = t.len + 1

theorem added_insert {t : Table κ ν} {k : κ} (h : t.get k = none) (v : ν) :
    t.Added (t.insert k v) k v where
  free := h
  get := get_insert_self t k v
  others _ hne := get_insert_of_ne hne v
  len := len_insert_of_get_eq_none h v

/-- Entries of distinct new keys are all added. -/
theorem insertAll_of_nodup {t : Table κ ν} {es : List (κ × ν)} (hn : (es.map Prod.fst).Nodup)
    (hnew : ∀ e ∈ es, t.get e.1 = none) : (t.insertAll es).len = t.len + es.length ∧
      ∀ k v, (t.insertAll es).get k = some v ↔ t.get k = some v ∨ (k, v) ∈ es := by
  induction es generalizing t with
  | nil => simp [insertAll]
  | cons e es ih =>
    obtain ⟨k₀, v₀⟩ := e
    rw [List.map_cons, List.nodup_cons] at hn
    have hk₀ : t.get k₀ = none := hnew (k₀, v₀) List.mem_cons_self
    have hnew' : ∀ e ∈ es, (t.insert k₀ v₀).get e.1 = none := by
      intro e he
      have hne : e.1 ≠ k₀ := by
        rintro rfl
        exact hn.1 (List.mem_map.mpr ⟨e, he, rfl⟩)
      rw [get_insert_of_ne hne]
      exact hnew e (List.mem_cons_of_mem _ he)
    obtain ⟨hlen, hget⟩ := ih hn.2 hnew'
    rw [insertAll_cons]
    refine ⟨?_, fun k v => ?_⟩
    · rw [hlen, len_insert_of_get_eq_none hk₀, List.length_cons]
      omega
    · rw [hget, List.mem_cons, Prod.mk.injEq]
      by_cases hk : k = k₀
      · subst hk
        simp [get_insert_self, hk₀, eq_comm]
      · simp [get_insert_of_ne hk, hk]

end Table

end Foundation

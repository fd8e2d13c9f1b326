import Mathlib

/-! Facts about ordered finite maps beyond the standard library: lookups with keys
compared by equality, the first entry in key order, as an iterator at the beginning
of a sorted map sees it, and walks over the entries in any order, as over a hash table. -/
namespace TreeMaps

variable {κ β : Type*} [Ord κ] [Std.TransOrd κ] [Std.LawfulEqOrd κ]

theorem insert_get [DecidableEq κ] (m : Std.ExtTreeMap κ β) (k : κ) (v : β) (k' : κ) :
    (m.insert k v)[k']? = if k' = k then some v else m[k']? := by
  rw [Std.ExtTreeMap.getElem?_insert]
  by_cases h : k' = k
  · subst h
    simp
  · have hc : ¬compare k k' = .eq := fun hc => h (Std.LawfulEqOrd.compare_eq_iff_eq.mp hc).symm
    simp [h, hc]

theorem insert_eq_self [DecidableEq κ] (m : Std.ExtTreeMap κ β) (k : κ) (v : β) :
    m.insert k v = m ↔ m[k]? = some v := by
  constructor
  · intro h
    rw [← h, insert_get, if_pos rfl]
  · intro h
    refine Std.ExtTreeMap.ext_getElem? fun k' => ?_
    rw [insert_get]
    split
    · next hk => rw [hk, h]
    · rfl

theorem insert_insert [DecidableEq κ] (m : Std.ExtTreeMap κ β) (k : κ) (v w : β) :
    (m.insert k v).insert k w = m.insert k w := by
  refine Std.ExtTreeMap.ext_getElem? fun k' => ?_
  rw [insert_get, insert_get, insert_get]
  split <;> rfl

theorem erase_get [DecidableEq κ] (m : Std.ExtTreeMap κ β) (k k' : κ) :
    (m.erase k)[k']? = if k' = k then none else m[k']? := by
  rw [Std.ExtTreeMap.getElem?_erase]
  by_cases h : k' = k
  · subst h
    simp
  · have hc : ¬compare k k' = .eq := fun hc => h (Std.LawfulEqOrd.compare_eq_iff_eq.mp hc).symm
    simp [h, hc]

omit [Std.LawfulEqOrd κ] in
theorem filter_get (m : Std.ExtTreeMap κ β) (f : β → Bool) (k : κ) :
    (m.filter fun _ v => f v)[k]? = m[k]?.filter f := by
  rw [Std.ExtTreeMap.getElem?_filter, Option.pfilter_eq_filter]

omit [Std.LawfulEqOrd κ] in
theorem values_eq (m : Std.ExtTreeMap κ β) : m.values = m.toList.map Prod.snd := by
  obtain ⟨⟨q⟩⟩ := m
  induction q using Quotient.inductionOn with
  | h t =>
    change t.inner.values = (Std.DTreeMap.Internal.Impl.Const.toList t.inner).map Prod.snd
    rw [Std.DTreeMap.Internal.Impl.values_eq_map_snd,
      Std.DTreeMap.Internal.Impl.Const.toList_eq_toListModel_map, List.map_map]
    rfl

theorem mem_values {m : Std.ExtTreeMap κ β} {v : β} (h : v ∈ m.values) :
    ∃ k : κ, m[k]? = some v := by
  rw [values_eq] at h
  obtain ⟨⟨k, w⟩, hkv, rfl⟩ := List.mem_map.mp h
  exact ⟨k, Std.ExtTreeMap.mem_toList_iff_getElem?_eq_some.mp hkv⟩

theorem head_toList_get {m : Std.ExtTreeMap κ β} {k : κ} {v : β}
    (h : m.toList.head? = some (k, v)) : m[k]? = some v :=
  Std.ExtTreeMap.mem_toList_iff_getElem?_eq_some.mp (List.mem_of_mem_head? h)

theorem head_toList_le {m : Std.ExtTreeMap κ β} {k : κ} {v : β}
    (h : m.toList.head? = some (k, v)) {k' : κ} {v' : β} (hk : m[k']? = some v') :
    (compare k k').isLE := by
  have hm : m.minKey? = some k := by
    rw [Std.ExtTreeMap.minKey?_eq_head?_keys, ← Std.ExtTreeMap.map_fst_toList_eq_keys,
      List.head?_map, h]
    rfl
  have hmem : k' ∈ m := by
    rw [Std.ExtTreeMap.mem_iff_isSome_getElem?, hk]
    rfl
  exact (Std.ExtTreeMap.minKey?_eq_some_iff_mem_and_forall.mp hm).2 k' hmem

theorem head_toList_none {m : Std.ExtTreeMap κ β} (h : m.toList.head? = none) (k : κ) :
    m[k]? = none := by
  have he : m.toList = [] := List.head?_eq_none_iff.mp h
  rw [Option.eq_none_iff_forall_ne_some]
  intro v hv
  have := Std.ExtTreeMap.mem_toList_iff_getElem?_eq_some.mpr hv
  rw [he] at this
  simp at this

/-- A map is rebuilt from the list of its entries. -/
theorem foldl_insert_toList [DecidableEq κ] (m : Std.ExtTreeMap κ β) :
    m.toList.foldl (fun out kv => out.insert kv.1 kv.2) (∅ : Std.ExtTreeMap κ β) = m := by
  have hlawful : Std.LawfulBEqCmp (compare : κ → κ → Ordering) := ⟨by simp⟩
  rw [← Std.ExtTreeMap.ofList_eq_foldl]
  refine Std.ExtTreeMap.ext_getElem? fun k => ?_
  cases hk : m[k]? with
  | some v =>
    exact Std.ExtTreeMap.getElem?_ofList_of_mem Std.ReflCmp.compare_self
      Std.ExtTreeMap.distinct_keys_toList (Std.ExtTreeMap.mem_toList_iff_getElem?_eq_some.mpr hk)
  | none =>
    apply Std.ExtTreeMap.getElem?_ofList_of_contains_eq_false
    rw [Std.ExtTreeMap.map_fst_toList_eq_keys]
    simpa using hk

/-- An order in which a table is walked. -/
structure Walk (κ : Type*) where
  order : List κ → List κ
  perm : ∀ keys, (order keys).Perm keys

namespace Walk

instance : Inhabited (Walk κ) := ⟨⟨id, fun _ => .refl _⟩⟩

variable (w : Walk κ) (m : Std.ExtTreeMap κ β)

def keys : List κ := w.order m.keys

def entries : List (κ × β) := (w.keys m).filterMap fun k => m[k]?.map fun v => (k, v)

variable {w m}

omit [Std.LawfulEqOrd κ] in
theorem perm_keys : (w.keys m).Perm m.keys := w.perm m.keys

omit [Std.LawfulEqOrd κ] in
theorem nodup_keys : (w.keys m).Nodup := perm_keys.nodup_iff.mpr Std.ExtTreeMap.nodup_keys

theorem mem_keys {k : κ} : k ∈ w.keys m ↔ k ∈ m := perm_keys.mem_iff.trans Std.ExtTreeMap.mem_keys

theorem mem_entries {kv : κ × β} : kv ∈ w.entries m ↔ m[kv.1]? = some kv.2 := by
  rw [entries, List.mem_filterMap]
  constructor
  · rintro ⟨k, -, hk⟩
    obtain ⟨v, hv, rfl⟩ := Option.map_eq_some_iff.mp hk
    exact hv
  · intro h
    refine ⟨kv.1, mem_keys.mpr (Std.ExtTreeMap.mem_iff_isSome_getElem?.mpr (by rw [h]; rfl)), ?_⟩
    rw [h]
    rfl

omit [Std.LawfulEqOrd κ] in
theorem nodup_entries : ((w.entries m).map Prod.fst).Nodup := by
  have hkey {k : κ} {kv : κ × β} (h : (m[k]?.map fun v => (k, v)) = some kv) : kv.1 = k := by
    obtain ⟨v, -, rfl⟩ := Option.map_eq_some_iff.mp h
    rfl
  refine List.pairwise_map.mpr (List.Pairwise.filterMap _ (fun k k' hne kv hkv kv' hkv' => ?_) nodup_keys)
  rw [hkey hkv, hkey hkv']
  exact hne

end Walk

end TreeMaps

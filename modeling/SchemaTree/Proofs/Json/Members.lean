import Mathlib.Data.List.Nodup
import SchemaTree.Json.Value

/-!
# Members of objects

What is found under a key after members were inserted.

* `get?_insert`: inserting sets the key and leaves the others as they are.
* `nodup_insert`: inserting leaves keys distinct.
* `mem_of_get?_ofList`, `get?_ofList_of_mem`: an object made of a list of pairs has no
  members but those, and **it has all of them if their keys are distinct.**
* `mem_keys_ofList`: an object made of a list of pairs has their keys.
* `ofList_of_nodup`, `length_ofList_eq_iff`: distinct keys leave the list as it is, and **a
  repeated key makes it shorter.**
* `overlaid`, `foldl_insert_eq_overlaid`: what members look like after others were written over
  them.
-/

namespace SchemaTree.Json.Members

variable {α : Type} {ms : List (String × α)} {k k' : String} {v v' : α}

@[simp] theorem get?_nil : get? ([] : List (String × α)) k = none := rfl

theorem get?_cons :
    get? ((k', v') :: ms) k = if k' = k then some v' else get? ms k := by
  by_cases h : k' = k <;> simp [get?, h]

theorem mem_of_get? (h : get? ms k = some v) : (k, v) ∈ ms := by
  obtain ⟨e, he, rfl⟩ := Option.map_eq_some_iff.mp h
  have hk : e.1 = k := by simpa using List.find?_some he
  rw [← hk]
  exact List.mem_of_find?_eq_some he

theorem get?_of_not_mem (h : k ∉ ms.map (·.1)) : get? ms k = none := by
  cases hget : get? ms k with
  | none => rfl
  | some v => exact absurd (List.mem_map_of_mem (mem_of_get? hget)) h

@[simp] theorem get?_insert :
    get? (insert k' v' ms) k = if k' = k then some v' else get? ms k := by
  induction ms with
  | nil => simp [insert, get?_cons]
  | cons e ms ih =>
    obtain ⟨k₀, v₀⟩ := e
    rw [insert]
    by_cases h₀ : k₀ = k'
    · subst h₀
      rw [if_pos rfl, get?_cons, get?_cons]
      by_cases h : k₀ = k <;> simp [h]
    · rw [if_neg h₀, get?_cons, get?_cons, ih]
      by_cases h : k₀ = k
      · subst h
        rw [if_pos rfl, if_neg (fun hk => h₀ hk.symm), if_pos rfl]
      · rw [if_neg h, if_neg h]

theorem map_fst_insert :
    (insert k v ms).map (·.1) =
      if k ∈ ms.map (·.1) then ms.map (·.1) else ms.map (·.1) ++ [k] := by
  induction ms with
  | nil => rfl
  | cons e ms ih =>
    obtain ⟨k₀, v₀⟩ := e
    rw [insert]
    by_cases h : k₀ = k
    · subst h
      simp
    · have hne : k ≠ k₀ := fun hk => h hk.symm
      rw [if_neg h, List.map_cons, ih, List.map_cons]
      by_cases hk : k ∈ ms.map (·.1)
      · rw [if_pos hk, if_pos (List.mem_cons_of_mem _ hk)]
      · rw [if_neg hk, if_neg (List.not_mem_cons_of_ne_of_not_mem hne hk), List.cons_append]

/-- **Inserting leaves keys distinct.** -/
theorem nodup_insert (h : (ms.map (·.1)).Nodup) : ((insert k v ms).map (·.1)).Nodup := by
  rw [map_fst_insert]
  split
  · exact h
  · rename_i hk
    refine List.nodup_append.mpr ⟨h, List.nodup_singleton k, fun k' hk' k'' hk'' heq => ?_⟩
    rw [List.mem_singleton.mp hk''] at heq
    exact hk (heq ▸ hk')

theorem get?_foldl_insert (pairs : List (String × α)) :
    get? (pairs.foldl (fun members (k, v) => insert k v members) ms) k =
      ((pairs.reverse.find? (·.1 = k)).map (·.2)).or (get? ms k) := by
  induction pairs generalizing ms with
  | nil => rfl
  | cons e pairs ih =>
    obtain ⟨k₀, v₀⟩ := e
    rw [List.foldl_cons, ih, get?_insert, List.reverse_cons, List.find?_append]
    cases pairs.reverse.find? (·.1 = k) with
    | some p => rfl
    | none => by_cases h : k₀ = k <;> simp [h]

theorem mem_of_get?_ofList {pairs : List (String × α)} (h : get? (ofList pairs) k = some v) :
    (k, v) ∈ pairs := by
  rw [ofList, get?_foldl_insert, get?_nil, Option.or_none, Option.map_eq_some_iff] at h
  obtain ⟨⟨k', v'⟩, hfind, rfl⟩ := h
  have hmem := List.mem_reverse.mp (List.mem_of_find?_eq_some hfind)
  have hk : k' = k := by simpa using List.find?_some hfind
  exact hk ▸ hmem

/-- **An object made of pairs with distinct keys has all of them as members.** -/
theorem get?_ofList_of_mem {pairs : List (String × α)} (hn : (pairs.map (·.1)).Nodup)
    (h : (k, v) ∈ pairs) : get? (ofList pairs) k = some v := by
  cases hg : get? (ofList pairs) k with
  | some v' =>
    have hmem := mem_of_get?_ofList hg
    have heq : (k, v') = (k, v) := List.inj_on_of_nodup_map hn hmem h rfl
    rw [Prod.mk.injEq] at heq
    rw [heq.2]
  | none =>
    rw [ofList, get?_foldl_insert, get?_nil, Option.or_none, Option.map_eq_none_iff,
      List.find?_eq_none] at hg
    exact absurd (by simp) (hg _ (List.mem_reverse.mpr h))

/-! ## Lists of pairs, repeated keys included -/

theorem insert_of_not_mem (h : k ∉ ms.map (·.1)) : insert k v ms = ms ++ [(k, v)] := by
  induction ms with
  | nil => rfl
  | cons e ms ih =>
    obtain ⟨k₀, v₀⟩ := e
    rw [List.map_cons, List.mem_cons, not_or] at h
    rw [insert, if_neg (fun hk => h.1 hk.symm), ih h.2, List.cons_append]

theorem length_insert_le : (insert k v ms).length ≤ ms.length + 1 := by
  induction ms with
  | nil => exact Nat.le_refl _
  | cons e ms ih =>
    rw [insert]
    split
    · simp
    · simpa using ih

theorem length_insert_of_mem (h : k ∈ ms.map (·.1)) : (insert k v ms).length = ms.length := by
  have hkeys : (insert k v ms).map (·.1) = ms.map (·.1) := by rw [map_fst_insert, if_pos h]
  simpa only [List.length_map] using congrArg List.length hkeys

theorem foldl_insert_cons (pairs : List (String × α)) :
    ((k, v) :: pairs).foldl (fun members (k, v) => insert k v members) ms =
      pairs.foldl (fun members (k, v) => insert k v members) (insert k v ms) := rfl

theorem length_foldl_insert_le (pairs : List (String × α)) :
    (pairs.foldl (fun members (k, v) => insert k v members) ms).length ≤
      ms.length + pairs.length := by
  induction pairs generalizing ms with
  | nil => exact Nat.le_refl _
  | cons e pairs ih =>
    obtain ⟨k₀, v₀⟩ := e
    have hhead : (insert k₀ v₀ ms).length ≤ ms.length + 1 := length_insert_le
    rw [foldl_insert_cons, List.length_cons]
    calc _ ≤ (insert k₀ v₀ ms).length + pairs.length := ih
      _ ≤ ms.length + (pairs.length + 1) := by omega

theorem foldl_insert_of_nodup {pairs : List (String × α)}
    (h : ((ms ++ pairs).map (·.1)).Nodup) :
    pairs.foldl (fun members (k, v) => insert k v members) ms = ms ++ pairs := by
  induction pairs generalizing ms with
  | nil => rw [List.append_nil, List.foldl_nil]
  | cons e pairs ih =>
    obtain ⟨k₀, v₀⟩ := e
    have hsplit : ms ++ (k₀, v₀) :: pairs = (ms ++ [(k₀, v₀)]) ++ pairs := by
      rw [List.append_assoc, List.singleton_append]
    have hnew : k₀ ∉ ms.map (·.1) := by
      intro hmem
      rw [List.map_append, List.nodup_append] at h
      exact h.2.2 _ hmem _ (List.mem_map_of_mem List.mem_cons_self) rfl
    rw [hsplit] at h
    rw [foldl_insert_cons, insert_of_not_mem hnew, ih h, hsplit]

theorem nodup_foldl_insert {pairs : List (String × α)} (h : (ms.map (·.1)).Nodup) :
    ((pairs.foldl (fun members (k, v) => insert k v members) ms).map (·.1)).Nodup := by
  induction pairs generalizing ms with
  | nil => exact h
  | cons e pairs ih => exact ih (nodup_insert h)

/-- **The keys of an object are distinct.** -/
theorem nodup_ofList (pairs : List (String × α)) : ((ofList pairs).map (·.1)).Nodup :=
  nodup_foldl_insert List.nodup_nil

/-- **Pairs with distinct keys are the object that they make.** -/
theorem ofList_of_nodup {pairs : List (String × α)} (h : (pairs.map (·.1)).Nodup) :
    ofList pairs = pairs :=
  @foldl_insert_of_nodup _ [] _ h

theorem mem_of_mem_ofList {pairs : List (String × α)} (h : (k, v) ∈ ofList pairs) :
    (k, v) ∈ pairs := by
  have hget : get? (ofList (ofList pairs)) k = some v :=
    get?_ofList_of_mem (nodup_ofList pairs) h
  rw [ofList_of_nodup (nodup_ofList pairs)] at hget
  exact mem_of_get?_ofList hget

theorem length_ofList_le (pairs : List (String × α)) : (ofList pairs).length ≤ pairs.length := by
  have hle : (ofList pairs).length ≤ ([] : List (String × α)).length + pairs.length :=
    length_foldl_insert_le pairs
  rwa [List.length_nil, Nat.zero_add] at hle

theorem mem_keys_foldl_insert {pairs : List (String × α)} :
    k ∈ (pairs.foldl (fun members (k, v) => insert k v members) ms).map (·.1) ↔
      k ∈ ms.map (·.1) ∨ k ∈ pairs.map (·.1) := by
  induction pairs generalizing ms with
  | nil => simp
  | cons e pairs ih =>
    obtain ⟨k₀, v₀⟩ := e
    have hkeys : k ∈ (insert k₀ v₀ ms).map (·.1) ↔ k ∈ ms.map (·.1) ∨ k = k₀ := by
      rw [map_fst_insert]
      split
      · rename_i hmem
        refine ⟨Or.inl, ?_⟩
        rintro (h | rfl)
        · exact h
        · exact hmem
      · rw [List.mem_append, List.mem_singleton]
    rw [foldl_insert_cons, ih, hkeys, List.map_cons, List.mem_cons, or_assoc]

theorem mem_keys_ofList {pairs : List (String × α)} :
    k ∈ (ofList pairs).map (·.1) ↔ k ∈ pairs.map (·.1) := by
  rw [ofList, mem_keys_foldl_insert]
  simp

theorem nodup_of_length_foldl_insert {pairs : List (String × α)} (hms : (ms.map (·.1)).Nodup)
    (h : (pairs.foldl (fun members (k, v) => insert k v members) ms).length =
      ms.length + pairs.length) :
    ((ms ++ pairs).map (·.1)).Nodup := by
  induction pairs generalizing ms with
  | nil => rwa [List.append_nil]
  | cons e pairs ih =>
    obtain ⟨k₀, v₀⟩ := e
    rw [foldl_insert_cons, List.length_cons] at h
    have hle : ms.length + (pairs.length + 1) ≤ (insert k₀ v₀ ms).length + pairs.length := by
      rw [← h]
      exact length_foldl_insert_le pairs
    have hnew : k₀ ∉ ms.map (·.1) := by
      intro hmem
      have hlen : (insert k₀ v₀ ms).length = ms.length := length_insert_of_mem hmem
      omega
    have hhead : insert k₀ v₀ ms = ms ++ [(k₀, v₀)] := insert_of_not_mem hnew
    have hnodup := ih (nodup_insert (k := k₀) (v := v₀) hms) (by
      rw [h, hhead, List.length_append, List.length_singleton]
      omega)
    rwa [hhead, List.append_assoc, List.singleton_append] at hnodup

/-- **An object has as many members as pairs were written exactly if no key was repeated.** -/
theorem length_ofList_eq_iff {pairs : List (String × α)} :
    (ofList pairs).length = pairs.length ↔ (pairs.map (·.1)).Nodup := by
  constructor
  · intro h
    refine @nodup_of_length_foldl_insert _ [] _ List.nodup_nil ?_
    rw [List.length_nil, Nat.zero_add]
    exact h
  · intro h
    rw [ofList_of_nodup h]

theorem length_flatten_ofList_eq_iff {lists : List (List (String × α))} :
    (lists.map ofList).flatten.length = lists.flatten.length ↔
      ∀ pairs ∈ lists, (pairs.map (·.1)).Nodup := by
  have hle : ∀ ls : List (List (String × α)),
      (ls.map ofList).flatten.length ≤ ls.flatten.length := by
    intro ls
    induction ls with
    | nil => exact Nat.le_refl _
    | cons pairs ls ih =>
      have hhead := length_ofList_le pairs
      rw [List.map_cons, List.flatten_cons, List.flatten_cons, List.length_append,
        List.length_append]
      omega
  induction lists with
  | nil => simp
  | cons pairs lists ih =>
    have hhead := length_ofList_le pairs
    have htail := hle lists
    rw [List.map_cons, List.flatten_cons, List.flatten_cons, List.length_append,
      List.length_append, List.forall_mem_cons, ← length_ofList_eq_iff]
    constructor
    · intro h
      exact ⟨by omega, ih.mp (by omega)⟩
    · rintro ⟨hfirst, hrest⟩
      have hlength := ih.mpr hrest
      omega

/-! ## Members over members -/

/-- Members written over others: a key that is there keeps its place, a new one comes at the end. -/
def overlaid (upper ms : List (String × α)) : List (String × α) :=
  ms.map (fun e => (e.1, (get? upper e.1).getD e.2)) ++ upper.filter (·.1 ∉ ms.map (·.1))

theorem insert_of_mem (hn : (ms.map (·.1)).Nodup) (hk : k ∈ ms.map (·.1)) :
    insert k v ms = ms.map fun e => (e.1, if e.1 = k then v else e.2) := by
  induction ms with
  | nil => exact absurd hk List.not_mem_nil
  | cons e ms ih =>
    obtain ⟨k₀, v₀⟩ := e
    rw [List.map_cons, List.nodup_cons] at hn
    rw [insert, List.map_cons]
    by_cases h : k₀ = k
    · subst h
      have hrest : ∀ e ∈ ms, (e.1, if e.1 = k₀ then v else e.2) = id e := by
        intro e he
        have hmem : e.1 ∈ ms.map (·.1) := List.mem_map_of_mem he
        have hne : e.1 ≠ k₀ := fun heq => hn.1 (heq ▸ hmem)
        rw [if_neg hne, id]
      rw [if_pos rfl, if_pos rfl, List.map_congr_left hrest, List.map_id]
    · have hmem : k ∈ ms.map (·.1) := (List.mem_cons.mp hk).resolve_left (Ne.symm h)
      rw [if_neg h, if_neg h, ih hn.2 hmem]

/-- **Inserting pairs with distinct keys one after the other writes them over what is there.** -/
theorem foldl_insert_eq_overlaid {pairs : List (String × α)} (hms : (ms.map (·.1)).Nodup)
    (hpairs : (pairs.map (·.1)).Nodup) :
    pairs.foldl (fun members (k, v) => insert k v members) ms = overlaid pairs ms := by
  induction pairs generalizing ms with
  | nil => simp [overlaid]
  | cons e pairs ih =>
    obtain ⟨k, v⟩ := e
    rw [List.map_cons, List.nodup_cons] at hpairs
    obtain ⟨hnew, hrest⟩ := hpairs
    -- No later pair has the key, so the value that is written now stays.
    have hlast : get? pairs k = none := get?_of_not_mem hnew
    rw [foldl_insert_cons, ih (nodup_insert hms) hrest, overlaid, overlaid, map_fst_insert]
    by_cases hk : k ∈ ms.map (·.1)
    · rw [if_pos hk, insert_of_mem hms hk, List.map_map,
        List.filter_cons_of_neg (by simpa using hk)]
      congr 1
      refine List.map_congr_left fun e _ => ?_
      rw [Function.comp_apply, get?_cons]
      by_cases he : e.1 = k
      · rw [if_pos he, if_pos he.symm, he, hlast, Option.getD_none, Option.getD_some]
      · rw [if_neg he, if_neg (Ne.symm he)]
    · have hbefore : ∀ e ∈ ms, (e.1, (get? pairs e.1).getD e.2) =
          (e.1, (get? ((k, v) :: pairs) e.1).getD e.2) := by
        intro e he
        have hmem : e.1 ∈ ms.map (·.1) := List.mem_map_of_mem he
        have hne : k ≠ e.1 := fun heq => hk (heq ▸ hmem)
        rw [get?_cons, if_neg hne]
      have hbehind : ∀ e ∈ pairs,
          decide (e.1 ∉ ms.map (·.1) ++ [k]) = decide (e.1 ∉ ms.map (·.1)) := by
        intro e he
        have hmem : e.1 ∈ pairs.map (·.1) := List.mem_map_of_mem he
        have hne : e.1 ≠ k := fun heq => hnew (heq ▸ hmem)
        simp [hne]
      rw [if_neg hk, insert_of_not_mem hk, List.map_append, List.map_congr_left hbefore,
        List.map_singleton, hlast, Option.getD_none, List.filter_congr hbehind,
        List.filter_cons_of_pos (by simpa using hk), List.append_assoc, List.singleton_append]

theorem get?_overlaid {upper : List (String × α)} (hms : (ms.map (·.1)).Nodup)
    (hupper : (upper.map (·.1)).Nodup) :
    get? (overlaid upper ms) k = (get? upper k).or (get? ms k) := by
  have hupper' : get? (ofList upper) k = get? upper k := by rw [ofList_of_nodup hupper]
  rw [ofList, get?_foldl_insert, get?_nil, Option.or_none] at hupper'
  rw [← foldl_insert_eq_overlaid hms hupper, get?_foldl_insert, hupper']

end SchemaTree.Json.Members

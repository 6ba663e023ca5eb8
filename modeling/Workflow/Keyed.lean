/-!
# Association lists in ascending order of key

A list of pairs whose string keys strictly ascend holds each key at most once
(`Ascending.nodup_keys`), and two such lists that answer every look-up alike are equal
(`Ascending.eq_of_find?`).  `insert` and `erase` keep the order (`ascending_insert`,
`ascending_erase`).  A look-up finds just what such a list holds
(`find?_eq_some_iff`), and `find?_insert`, `find?_insertIfNew` and `find?_erase` say what it finds
after a change.
-/

namespace Workflow
namespace Keyed

variable {α : Type}

/-- The keys strictly ascend. -/
def Ascending (entries : List (String × α)) : Prop :=
  entries.Pairwise fun a b => a.1 < b.1

def find? (key : String) : List (String × α) → Option α
  | [] => none
  | (k, v) :: rest => if k = key then some v else find? key rest

/-- Stores `value` under `key`, in place of an earlier value if there is one. -/
def insert (key : String) (value : α) : List (String × α) → List (String × α)
  | [] => [(key, value)]
  | (k, v) :: rest =>
      if k < key then
        (k, v) :: insert key value rest
      else if k = key then
        (key, value) :: rest
      else
        (key, value) :: (k, v) :: rest

/-- Stores `value` under `key` unless a value is stored there. -/
def insertIfNew (key : String) (value : α) (entries : List (String × α)) : List (String × α) :=
  if (find? key entries).isSome then entries else insert key value entries

def erase (key : String) (entries : List (String × α)) : List (String × α) :=
  entries.filter fun entry => entry.1 ≠ key

/-- The pairs of a list, the last of several equal keys in force. -/
def ofList (pairs : List (String × α)) : List (String × α) :=
  pairs.foldl (fun entries pair => insert pair.1 pair.2 entries) []

@[simp] theorem find?_nil (key : String) : find? key ([] : List (String × α)) = none :=
  rfl

@[simp] theorem find?_cons (key : String) (entry : String × α) (rest : List (String × α)) :
    find? key (entry :: rest) = if entry.1 = key then some entry.2 else find? key rest :=
  rfl

@[simp] theorem find?_insert (key : String) (value : α) (entries : List (String × α))
    (other : String) :
    find? other (insert key value entries) =
      if key = other then some value else find? other entries := by
  induction entries with
  | nil => simp [insert]
  | cons entry rest ih =>
      obtain ⟨k, v⟩ := entry
      unfold insert
      split
      · rename_i hlt
        have hne : k ≠ key := fun h => String.lt_irrefl key (h ▸ hlt)
        by_cases hk : k = other
        · have : key ≠ other := fun h => hne (hk.trans h.symm)
          simp [hk, this]
        · simp [hk, ih]
      · split
        · rename_i heq
          by_cases hk : key = other
          · simp [hk]
          · simp [heq, hk]
        · simp

@[simp] theorem find?_append (key : String) (entries others : List (String × α)) :
    find? key (entries ++ others) = (find? key entries).or (find? key others) := by
  induction entries with
  | nil => rfl
  | cons entry entries ih =>
      by_cases hk : entry.1 = key
      · simp [hk]
      · simp [hk, ih]

/-- Of several insertions under one key the last counts. -/
@[simp] theorem find?_foldl_insert (key : String) (pairs entries : List (String × α)) :
    find? key (pairs.foldl (fun entries pair => insert pair.1 pair.2 entries) entries) =
      (find? key pairs.reverse).or (find? key entries) := by
  induction pairs generalizing entries with
  | nil => rfl
  | cons pair pairs ih =>
      rw [List.foldl_cons, ih, List.reverse_cons]
      by_cases hk : pair.1 = key
      · simp [hk]
      · simp [hk]

@[simp] theorem find?_insertIfNew (key : String) (value : α) (entries : List (String × α))
    (other : String) :
    find? other (insertIfNew key value entries) =
      (find? other entries).or (if key = other then some value else none) := by
  unfold insertIfNew
  by_cases hkey : key = other
  · subst hkey
    cases hfound : find? key entries with
    | none => simp
    | some v => simp [hfound]
  · rw [if_neg hkey, Option.or_none]
    split
    · rfl
    · simp [hkey]

@[simp] theorem find?_erase (key : String) (entries : List (String × α)) (other : String) :
    find? other (erase key entries) = if key = other then none else find? other entries := by
  induction entries with
  | nil => simp [erase]
  | cons entry rest ih =>
      by_cases hk : entry.1 = key
      · have hrest : erase key (entry :: rest) = erase key rest := by simp [erase, hk]
        rw [hrest, ih]
        by_cases hother : key = other
        · simp [hother]
        · simp [hk, hother]
      · have hrest : erase key (entry :: rest) = entry :: erase key rest := by simp [erase, hk]
        by_cases hother : entry.1 = other
        · have : key ≠ other := fun h => hk (hother.trans h.symm)
          simp [hrest, hother, this]
        · simp [hrest, ih, hother]

/-- A look-up in ascending entries finds just what they hold. -/
theorem find?_eq_some_iff {entries : List (String × α)} (h : Ascending entries) {key : String}
    {value : α} : find? key entries = some value ↔ (key, value) ∈ entries := by
  induction entries with
  | nil => simp
  | cons entry rest ih =>
      obtain ⟨k, v⟩ := entry
      obtain ⟨hhead, hrest⟩ := List.pairwise_cons.mp h
      rw [find?_cons]
      split
      · rename_i heq
        subst heq
        have hnot : (k, value) ∉ rest := fun hmem => String.lt_irrefl k (hhead _ hmem)
        simp [hnot, eq_comm]
      · rename_i hne
        have hne' : ¬ (key, value) = (k, v) := fun heq => hne (Prod.mk.inj heq).1.symm
        rw [List.mem_cons, ih hrest, or_iff_right hne']

/-- No key stands twice. -/
theorem Ascending.nodup_keys {entries : List (String × α)} (h : Ascending entries) :
    (entries.map Prod.fst).Nodup := by
  refine List.pairwise_map.mpr (List.Pairwise.imp ?_ h)
  intro a b hlt heq
  exact String.lt_irrefl b.1 (heq ▸ hlt)

theorem Ascending.nodup {entries : List (String × α)} (h : Ascending entries) : entries.Nodup :=
  List.Pairwise.of_map Prod.fst (fun _ _ hne heq => hne (congrArg Prod.fst heq)) h.nodup_keys

/-- Ascending entries that answer every look-up alike are equal. -/
theorem Ascending.eq_of_find? {entries others : List (String × α)} (h : Ascending entries)
    (hothers : Ascending others) (hfind : ∀ key, find? key entries = find? key others) :
    entries = others := by
  have hmem : ∀ entry, entry ∈ entries ↔ entry ∈ others := by
    rintro ⟨key, value⟩
    rw [← find?_eq_some_iff h, ← find?_eq_some_iff hothers, hfind]
  have hperm : entries.Perm others :=
    (List.perm_ext_iff_of_nodup h.nodup hothers.nodup).mpr hmem
  exact hperm.eq_of_pairwise (fun _ _ _ _ hlt hgt => absurd hgt (String.lt_asymm hlt)) h hothers

theorem mem_insert {key : String} {value : α} {entries : List (String × α)} {e : String × α}
    (h : e ∈ insert key value entries) : e = (key, value) ∨ e ∈ entries := by
  induction entries with
  | nil => simpa [insert] using h
  | cons entry rest ih =>
      obtain ⟨k, v⟩ := entry
      unfold insert at h
      split at h
      · rcases List.mem_cons.mp h with rfl | h
        · exact Or.inr List.mem_cons_self
        · exact (ih h).imp id (List.mem_cons_of_mem _)
      · split at h
        · rcases List.mem_cons.mp h with rfl | h
          · exact Or.inl rfl
          · exact Or.inr (List.mem_cons_of_mem _ h)
        · rcases List.mem_cons.mp h with rfl | h
          · exact Or.inl rfl
          · exact Or.inr h

/-- An insertion keeps the order. -/
theorem ascending_insert (key : String) (value : α) {entries : List (String × α)}
    (h : Ascending entries) : Ascending (insert key value entries) := by
  induction entries with
  | nil => simp [insert, Ascending]
  | cons entry rest ih =>
      obtain ⟨k, v⟩ := entry
      obtain ⟨hhead, hrest⟩ := List.pairwise_cons.mp h
      unfold insert
      split
      · rename_i hlt
        refine List.pairwise_cons.mpr ⟨fun e he => ?_, ih hrest⟩
        rcases mem_insert he with rfl | he
        · exact hlt
        · exact hhead e he
      · rename_i hnlt
        split
        · rename_i heq
          exact List.pairwise_cons.mpr ⟨fun e he => heq ▸ hhead e he, hrest⟩
        · rename_i hne
          have hlt : key < k :=
            Decidable.byContradiction fun hn => hne (String.le_antisymm hn hnlt)
          refine List.pairwise_cons.mpr ⟨fun e he => ?_, h⟩
          rcases List.mem_cons.mp he with rfl | he
          · exact hlt
          · exact String.lt_trans hlt (hhead e he)

/-- A removal keeps the order. -/
theorem ascending_erase (key : String) {entries : List (String × α)} (h : Ascending entries) :
    Ascending (erase key entries) :=
  List.Pairwise.filter _ h

/-- A list of pairs is brought into order. -/
theorem ascending_ofList (pairs : List (String × α)) : Ascending (ofList pairs) := by
  suffices h : ∀ entries : List (String × α), Ascending entries →
      Ascending (pairs.foldl (fun entries pair => insert pair.1 pair.2 entries) entries) from
    h [] List.Pairwise.nil
  induction pairs with
  | nil => exact fun _ h => h
  | cons pair rest ih => exact fun entries h => ih _ (ascending_insert _ _ h)

end Keyed
end Workflow

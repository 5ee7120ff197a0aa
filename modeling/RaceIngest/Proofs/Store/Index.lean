import RaceIngest.Store.Index

/-!
# The index of races as a map

A `RaceIndex` is a list of races in ascending order of their identifiers. Seen from outside it is a
map from identifiers to races, and this module says how an insertion changes that map. The order is
what makes the list a map at all: an insertion stops at the first greater identifier, so in a list
out of order it could miss the race that it has to update.

## Main results

* `RaceIndex.Ordered`, kept by every insertion (`RaceIndex.ordered_put`, `RaceIndex.ordered_ofList`).
* `RaceIndex.find?_put`: an insertion changes one entry of the map.
* `RaceIndex.Ordered.eq_of_find?`: an ordered index is determined by what is found in it.
* `RaceIndex.ofList_newestFirst`: an ordered index can be built anew from its list, whatever the
  order of the list.
-/

namespace RaceIngest.RaceIndex

/-! ## Ascending lists of races -/

/-- Races in strictly ascending order of their identifiers. -/
def Ascending (races : List Race) : Prop := races.Pairwise fun a b => a.id.toNat < b.id.toNat

/-- The races of the index are in ascending order. -/
def Ordered (index : RaceIndex) : Prop := Ascending index.races

/-- A race that stands before ascending races is none of them. -/
theorem find?_eq_none_of_lt {id : Uuid} {races : List Race}
    (hlt : ∀ race ∈ races, id.toNat < race.id.toNat) :
    races.find? (fun race => race.id == id) = none := by
  rw [List.find?_eq_none]
  intro race hrace
  have hne := hlt race hrace
  simp only [beq_iff_eq]
  rintro rfl
  exact Nat.lt_irrefl _ hne

variable {combine : Race → Race → Race} {race : Race}

/-- An insertion adds at most the identifier of the race that is inserted. -/
theorem mem_insertWith (hid : ∀ stored, stored.id = race.id → (combine stored race).id = race.id)
    {races : List Race} {other : Race} (hother : other ∈ insertWith combine race races) :
    other.id = race.id ∨ ∃ stored ∈ races, stored.id = other.id := by
  induction races with
  | nil =>
      rw [insertWith, List.mem_singleton] at hother
      exact .inl (congrArg Race.id hother)
  | cons head rest ih =>
      unfold insertWith at hother
      split at hother
      · rename_i hsame
        rcases List.mem_cons.mp hother with rfl | hrest
        · exact .inl (hid head hsame.symm)
        · exact .inr ⟨other, List.mem_cons_of_mem _ hrest, rfl⟩
      · split at hother
        · rcases List.mem_cons.mp hother with rfl | hrest
          · exact .inl rfl
          · exact .inr ⟨other, hrest, rfl⟩
        · rcases List.mem_cons.mp hother with rfl | hrest
          · exact .inr ⟨other, List.mem_cons_self, rfl⟩
          · rcases ih hrest with hsame | ⟨stored, hstored, heq⟩
            · exact .inl hsame
            · exact .inr ⟨stored, List.mem_cons_of_mem _ hstored, heq⟩

theorem ascending_insertWith
    (hid : ∀ stored, stored.id = race.id → (combine stored race).id = race.id)
    {races : List Race} (h : Ascending races) : Ascending (insertWith combine race races) := by
  induction races with
  | nil => exact List.pairwise_singleton _ _
  | cons head rest ih =>
      obtain ⟨hhead, hrest⟩ := List.pairwise_cons.mp h
      unfold insertWith
      split
      · rename_i hsame
        refine List.pairwise_cons.mpr ⟨?_, hrest⟩
        intro other hother
        rw [hid head hsame.symm, hsame]
        exact hhead other hother
      · rename_i hne
        split
        · rename_i hlt
          refine List.pairwise_cons.mpr ⟨?_, h⟩
          intro other hother
          rcases List.mem_cons.mp hother with rfl | hmem
          · exact hlt
          · exact Nat.lt_trans hlt (hhead other hmem)
        · rename_i hnlt
          have hgt : head.id.toNat < race.id.toNat := by
            have hdiffer : race.id.toNat ≠ head.id.toNat := fun heq => hne (Uuid.toNat_inj.mp heq)
            omega
          refine List.pairwise_cons.mpr ⟨?_, ih hrest⟩
          intro other hother
          rcases mem_insertWith hid hother with hsame | ⟨stored, hstored, heq⟩
          · rw [hsame]
            exact hgt
          · rw [← heq]
            exact hhead stored hstored

/-- What an insertion stores: the race itself when it is new, and otherwise its combination with
the race that was stored. -/
theorem find?_insertWith
    (hid : ∀ stored, stored.id = race.id → (combine stored race).id = race.id)
    {races : List Race} (h : Ascending races) (id : Uuid) :
    (insertWith combine race races).find? (fun other => other.id == id) =
      if id = race.id then
        some (((races.find? fun other => other.id == race.id).map (combine · race)).getD race)
      else races.find? fun other => other.id == id := by
  induction races with
  | nil =>
      by_cases hsame : id = race.id
      · simp [insertWith, hsame]
      · simp [insertWith, hsame, Ne.symm hsame]
  | cons head rest ih =>
      obtain ⟨hhead, hrest⟩ := List.pairwise_cons.mp h
      unfold insertWith
      split
      · rename_i heq
        have hcombined := hid head heq.symm
        by_cases hsame : id = race.id
        · simp [hsame, hcombined, heq]
        · have hother : race.id ≠ id := Ne.symm hsame
          have hother' : head.id ≠ id := heq ▸ hother
          simp [hsame, hcombined, hother, hother']
      · rename_i hne
        have hne' : head.id ≠ race.id := Ne.symm hne
        split
        · rename_i hlt
          by_cases hsame : id = race.id
          · have hnone : rest.find? (fun other => other.id == race.id) = none :=
              find?_eq_none_of_lt fun other hother => Nat.lt_trans hlt (hhead other hother)
            simp [hsame, hne', hnone]
          · have hother : race.id ≠ id := Ne.symm hsame
            simp [hsame, List.find?_cons, hother]
        · have hskip : (head.id == race.id) = false := by simpa using hne'
          rw [List.find?_cons, ih hrest]
          by_cases hsame : id = race.id
          · rw [hsame, List.find?_cons, hskip]
          · simp only [hsame, if_false]
            rw [List.find?_cons]

/-! ## Updates -/

theorem ordered_put {index : RaceIndex} (h : index.Ordered) (race : Race) :
    (index.put race).Ordered :=
  ascending_insertWith (fun stored heq => by rw [Race.id_mergeMutable, heq]) h

/-- An update stores a new race as it is, changes what may change of a stored one, and leaves all
others alone. -/
theorem find?_put {index : RaceIndex} (h : index.Ordered) (race : Race) (id : Uuid) :
    (index.put race).find? id =
      if id = race.id then some (((index.find? race.id).map (·.mergeMutable race)).getD race)
      else index.find? id :=
  find?_insertWith (fun stored heq => by rw [Race.id_mergeMutable, heq]) h id

theorem ordered_putAll {index : RaceIndex} (h : index.Ordered) (races : List Race) :
    (index.putAll races).Ordered := by
  induction races generalizing index with
  | nil => exact h
  | cons race races ih => exact ih (ordered_put h race)

/-! ## An ordered index is its map -/

/-- In an ascending list a race is found by its identifier. -/
theorem Ascending.find?_eq_some_iff {races : List Race} (h : Ascending races) {id : Uuid}
    {race : Race} :
    races.find? (fun other => other.id == id) = some race ↔ race ∈ races ∧ race.id = id := by
  constructor
  · intro hfound
    exact ⟨List.mem_of_find?_eq_some hfound, by simpa using List.find?_some hfound⟩
  · rintro ⟨hmem, rfl⟩
    induction races with
    | nil => exact absurd hmem List.not_mem_nil
    | cons head rest ih =>
        obtain ⟨hhead, hrest⟩ := List.pairwise_cons.mp h
        rcases List.mem_cons.mp hmem with rfl | hmem
        · simp
        · have hne : head.id ≠ race.id := by
            intro heq
            have hlt := hhead race hmem
            rw [heq] at hlt
            exact Nat.lt_irrefl _ hlt
          simpa [hne] using ih hrest hmem

/-- Two ascending lists with the same races are equal. -/
theorem Ascending.eq_of_mem_iff {races others : List Race} (h : Ascending races)
    (h' : Ascending others) (hmem : ∀ race, race ∈ races ↔ race ∈ others) : races = others := by
  have hirrefl : ∀ {list : List Race}, Ascending list → list.Nodup := by
    intro list hlist
    refine hlist.imp ?_
    rintro a b hlt rfl
    exact Nat.lt_irrefl _ hlt
  have hperm : races.Perm others :=
    (List.perm_ext_iff_of_nodup (hirrefl h) (hirrefl h')).mpr hmem
  refine hperm.eq_of_pairwise ?_ h h'
  intro a b _ _ hab hba
  omega

/-- An ordered index is determined by what is found in it. -/
theorem Ordered.eq_of_find? {index other : RaceIndex} (h : index.Ordered) (h' : other.Ordered)
    (hfind : ∀ id, index.find? id = other.find? id) : index = other := by
  have hraces : index.races = other.races := by
    refine Ascending.eq_of_mem_iff h h' ?_
    intro race
    have hleft : index.find? race.id = some race ↔ race ∈ index.races ∧ race.id = race.id :=
      Ascending.find?_eq_some_iff h
    have hright : other.find? race.id = some race ↔ race ∈ other.races ∧ race.id = race.id :=
      Ascending.find?_eq_some_iff h'
    rw [hfind race.id] at hleft
    simpa using hleft.symm.trans hright
  cases index
  cases other
  exact congrArg RaceIndex.mk hraces

/-- The races that were inserted one after the other over ascending ones: of several with one
identifier the last counts. -/
theorem find?_foldl_insertWith (races : List Race) {sorted : List Race} (h : Ascending sorted)
    (id : Uuid) :
    let inserted := races.foldl (fun sorted race => insertWith (fun _ last => last) race sorted) sorted
    Ascending inserted ∧ inserted.find? (fun other => other.id == id) =
      (races.reverse.find? fun other => other.id == id).or
        (sorted.find? fun other => other.id == id) := by
  induction races generalizing sorted with
  | nil => exact ⟨h, by simp⟩
  | cons race races ih =>
      have hid : ∀ stored : Race, stored.id = race.id → race.id = race.id := fun _ _ => rfl
      have hinserted : Ascending (insertWith (fun _ last => last) race sorted) :=
        ascending_insertWith hid h
      obtain ⟨hascending, hfind⟩ := ih hinserted
      refine ⟨hascending, ?_⟩
      rw [List.foldl_cons, hfind, find?_insertWith hid h, List.reverse_cons, List.find?_append]
      cases races.reverse.find? fun other => other.id == id with
      | some found => simp
      | none =>
          by_cases hsame : id = race.id
          · have hlast : ∀ found : Option Race, (found.map fun _ => race).getD race = race := by
              intro found
              cases found <;> rfl
            simp [hsame, hlast]
          · simp [hsame, Ne.symm hsame]

/-- Every index that is built from a list of races is ordered. -/
theorem ordered_ofList (races : List Race) : (ofList races).Ordered :=
  (find?_foldl_insertWith races List.Pairwise.nil default).1

/-- An ordered index can be built anew from its races in any order. -/
theorem ofList_eq_of_perm {index : RaceIndex} (h : index.Ordered) {races : List Race}
    (hperm : races.Perm index.races) : ofList races = index := by
  have hordered := ordered_ofList races
  have hfind : ∀ id, (ofList races).find? id = index.find? id := by
    intro id
    have hbuilt := (find?_foldl_insertWith races List.Pairwise.nil id).2
    simp only [List.find?_nil, Option.or_none] at hbuilt
    change (ofList races).races.find? _ = index.races.find? _
    change (ofList races).races.find? _ = _ at hbuilt
    rw [hbuilt]
    have hmem : ∀ race, race ∈ races.reverse ↔ race ∈ index.races := by
      intro race
      rw [List.mem_reverse]
      exact hperm.mem_iff
    cases hfound : index.races.find? fun other => other.id == id with
    | none =>
        rw [List.find?_eq_none] at hfound ⊢
        exact fun race hrace => hfound race ((hmem race).mp hrace)
    | some race =>
        obtain ⟨hrace, hid⟩ := h.find?_eq_some_iff.mp hfound
        cases hother : races.reverse.find? fun other => other.id == id with
        | none =>
            rw [List.find?_eq_none] at hother
            exact absurd (by simpa using hid) (hother race ((hmem race).mpr hrace))
        | some other =>
            have hotherMem := (hmem other).mp (List.mem_of_find?_eq_some hother)
            have hotherId : other.id = id := by simpa using List.find?_some hother
            rw [← hfound]
            exact (h.find?_eq_some_iff.mpr ⟨hotherMem, hotherId⟩).symm
  exact hordered.eq_of_find? h hfind

theorem ofList_newestFirst {index : RaceIndex} (h : index.Ordered) :
    ofList index.newestFirst = index :=
  ofList_eq_of_perm h (List.mergeSort_perm _ _)

end RaceIngest.RaceIndex

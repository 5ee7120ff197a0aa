import RaceIngest.Race.Lap
import Mathlib.Data.List.Induction
import Mathlib.Data.List.Pairwise

/-!
# Laps and the sample received last

The laps of a race and the last sample of a race come from two passes over the same samples, written
apart from each other. Both keep what they have only against a candidate that is strictly earlier,
so among samples received at one moment the later one in the list counts, in both.

`IsLatest` says what is kept without a pass: a place in the list behind which all is strictly
earlier and before which nothing is later. There is one such sample in every list that is not empty,
and it is the one that `latest?` picks (`latest?_eq_some_iff`). Seen as a map from lap numbers, the
laps are that pick made for every number on its own (`Lap.at?_collect`), by induction from the last
sample backwards, since one more sample changes the entry of one number only (`Lap.at?_insert`).

That the order of the samples does not matter is not a matter of maps: two insertions of laps that
were not received at the same moment commute (`Lap.insert_comm`), whatever they are made into.

## Main definitions

* `IsLatest`: a sample with the greatest receipt time, the last among equals.
* `ofLap`: the samples of a lap number; `Lap.at?`: the lap with a number.

## Main results

* `latest?_eq_some_iff`: `latest?` picks the latest sample.
* `Lap.at?_collect`: the lap with a number is the latest sample of that number.
* `Lap.collected_as_latest`: laps and last sample agree.
-/

namespace RaceIngest

open Calendar

/-! ## The sample that was received last -/

/-- A sample with the greatest receipt time, the last among equals. -/
def IsLatest (samples : List Recorded) (last : Recorded) : Prop :=
  ∃ earlier later, samples = earlier ++ last :: later ∧
    (∀ recorded ∈ earlier, recorded.createdAt ≤ last.createdAt) ∧
    ∀ recorded ∈ later, recorded.createdAt < last.createdAt

namespace IsLatest

variable {samples : List Recorded} {last : Recorded}

theorem mem (h : IsLatest samples last) : last ∈ samples := by
  obtain ⟨earlier, later, rfl, -, -⟩ := h
  simp

theorem le (h : IsLatest samples last) :
    ∀ recorded ∈ samples, recorded.createdAt ≤ last.createdAt := by
  obtain ⟨earlier, later, rfl, hearlier, hlater⟩ := h
  intro recorded hrecorded
  rcases List.mem_append.mp hrecorded with hbefore | hbehind
  · exact hearlier recorded hbefore
  · rcases List.mem_cons.mp hbehind with rfl | hafter
    · exact Int.le_refl _
    · exact Timestamp.le_of_lt (hlater recorded hafter)

/-- The latest of all samples is the latest of those it is selected with. -/
theorem filter (h : IsLatest samples last) {p : Recorded → Bool} (hp : p last = true) :
    IsLatest (samples.filter p) last := by
  obtain ⟨earlier, later, rfl, hearlier, hlater⟩ := h
  refine ⟨earlier.filter p, later.filter p, ?_, ?_, ?_⟩
  · rw [List.filter_append, List.filter_cons_of_pos hp]
  · intro recorded hrecorded
    exact hearlier recorded (List.mem_filter.mp hrecorded).1
  · intro recorded hrecorded
    exact hlater recorded (List.mem_filter.mp hrecorded).1

end IsLatest

theorem latest?_concat (samples : List Recorded) (recorded : Recorded) :
    latest? (samples ++ [recorded]) =
      match latest? samples with
      | some current =>
          if recorded.createdAt < current.createdAt then some current else some recorded
      | none => some recorded := by
  rw [latest?, List.foldl_append]
  rfl

theorem isLatest_of_latest? {samples : List Recorded} {last : Recorded}
    (h : latest? samples = some last) : IsLatest samples last := by
  induction samples using List.reverseRecOn generalizing last with
  | nil => cases h
  | append_singleton samples recorded ih =>
      rw [latest?_concat] at h
      cases hcurrent : latest? samples with
      | none =>
          rw [hcurrent] at h
          rw [(latest?_eq_none_iff samples).mp hcurrent, ← Option.some.inj h]
          exact ⟨[], [], rfl, by simp, by simp⟩
      | some current =>
          obtain ⟨earlier, later, hsamples, hearlier, hlater⟩ := ih hcurrent
          rw [hcurrent] at h
          simp only at h
          split at h
          · rename_i hless
            cases h
            refine ⟨earlier, later ++ [recorded], by simp [hsamples], hearlier, ?_⟩
            intro other hother
            rcases List.mem_append.mp hother with hold | hnew
            · exact hlater other hold
            · rwa [List.mem_singleton.mp hnew]
          · rename_i hless
            cases h
            have hle := Timestamp.not_lt.mp hless
            refine ⟨samples, [], rfl, ?_, by simp⟩
            intro other hother
            exact Timestamp.le_trans ((ih hcurrent).le other hother) hle

/-- The latest sample is picked: it replaces whatever was kept before it, and nothing behind it
replaces it. -/
theorem IsLatest.latest?_eq {samples : List Recorded} {last : Recorded}
    (h : IsLatest samples last) : latest? samples = some last := by
  obtain ⟨earlier, later, rfl, hearlier, hlater⟩ := h
  induction later using List.reverseRecOn with
  | nil =>
      rw [latest?_concat]
      cases hcurrent : latest? earlier with
      | none => rfl
      | some current =>
          have hle := hearlier current (isLatest_of_latest? hcurrent).mem
          show (if last.createdAt < current.createdAt then some current else some last) = some last
          rw [if_neg (Timestamp.not_lt.mpr hle)]
  | append_singleton later recorded ih =>
      have hkept := ih fun other hother => hlater other (List.mem_append_left _ hother)
      have hless := hlater recorded (by simp)
      rw [← List.cons_append, ← List.append_assoc, latest?_concat, hkept]
      show (if recorded.createdAt < last.createdAt then some last else some recorded) = some last
      rw [if_pos hless]

theorem latest?_eq_some_iff {samples : List Recorded} {last : Recorded} :
    latest? samples = some last ↔ IsLatest samples last :=
  ⟨isLatest_of_latest?, IsLatest.latest?_eq⟩

/-- Where receipt times never go back, the last sample is the latest. -/
theorem latest?_of_pairwise {samples : List Recorded} {last : Recorded}
    (h : (samples ++ [last]).Pairwise fun first second => first.createdAt ≤ second.createdAt) :
    latest? (samples ++ [last]) = some last := by
  have hle := (List.pairwise_append.mp h).2.2
  have hlatest : IsLatest (samples ++ [last]) last :=
    ⟨samples, [], rfl, fun recorded hrecorded => hle recorded hrecorded last (by simp), by simp⟩
  exact hlatest.latest?_eq

/-! ## Laps as a map -/

/-- The samples of a lap number. -/
def ofLap (k : UInt16) (samples : List Recorded) : List Recorded :=
  samples.filter fun recorded => recorded.sample.lapNumber = k

theorem mem_ofLap {k : UInt16} {samples : List Recorded} {recorded : Recorded} :
    recorded ∈ ofLap k samples ↔ recorded ∈ samples ∧ recorded.sample.lapNumber = k := by
  simp [ofLap]

/-- Two samples of different laps, or received at different moments. -/
def ToldApart (first second : Recorded) : Prop :=
  first.sample.lapNumber = second.sample.lapNumber → first.createdAt ≠ second.createdAt

instance (first second : Recorded) : Decidable (ToldApart first second) :=
  inferInstanceAs (Decidable (_ → _))

instance : Std.Symm ToldApart where
  symm _ _ h hsame := (h hsame.symm).symm

namespace Lap

/-- Laps in strictly ascending order of their numbers. -/
def Ascending (laps : List Lap) : Prop := laps.Pairwise fun a b => a.lapNumber < b.lapNumber

/-- The lap with a number. -/
def at? (k : UInt16) (laps : List Lap) : Option Lap := laps.find? fun lap => lap.lapNumber = k

@[simp] theorem at?_nil (k : UInt16) : at? k [] = none := rfl

theorem at?_cons (k : UInt16) (lap : Lap) (laps : List Lap) :
    at? k (lap :: laps) = if lap.lapNumber = k then some lap else at? k laps := by
  by_cases hk : lap.lapNumber = k
  · simp [at?, hk]
  · simp [at?, hk]

theorem lapNumber_of_at? {k : UInt16} {laps : List Lap} {lap : Lap} (h : at? k laps = some lap) :
    lap.lapNumber = k := by
  simpa using List.find?_some h

/-- What is kept of a lap when another state of it comes in. -/
def keep (lap known : Lap) : Lap := if lap.finishedAt < known.finishedAt then known else lap

/-- A number below those of all laps is none of them. -/
theorem at?_eq_none_of_lt {k : UInt16} {laps : List Lap} (h : ∀ lap ∈ laps, k < lap.lapNumber) :
    at? k laps = none := by
  rw [at?, List.find?_eq_none]
  intro lap hlap
  have hne : lap.lapNumber ≠ k := (UInt16.ne_of_lt (h lap hlap)).symm
  simpa using hne

theorem mem_insert {lap other : Lap} {laps : List Lap} (h : other ∈ lap.insert laps) :
    other = lap ∨ other ∈ laps := by
  induction laps with
  | nil => exact .inl (List.mem_singleton.mp h)
  | cons known rest ih => grind [insert]

/-- An insertion keeps the laps in ascending order. -/
theorem ascending_insert {laps : List Lap} (h : Ascending laps) (lap : Lap) :
    Ascending (lap.insert laps) := by
  induction laps with
  | nil => exact List.pairwise_singleton _ _
  | cons known rest ih =>
      obtain ⟨hknown, hrest⟩ := List.pairwise_cons.mp h
      unfold insert
      by_cases hless : lap.lapNumber < known.lapNumber
      · rw [if_pos hless]
        refine List.pairwise_cons.mpr ⟨?_, h⟩
        intro other hother
        rcases List.mem_cons.mp hother with rfl | hlater
        · exact hless
        · exact UInt16.lt_trans hless (hknown other hlater)
      · rw [if_neg hless]
        by_cases hsame : lap.lapNumber = known.lapNumber
        · rw [if_pos hsame]
          by_cases hearlier : lap.finishedAt < known.finishedAt
          · rw [if_pos hearlier]
            exact h
          · rw [if_neg hearlier]
            refine List.pairwise_cons.mpr ⟨?_, hrest⟩
            intro other hother
            rw [hsame]
            exact hknown other hother
        · rw [if_neg hsame]
          refine List.pairwise_cons.mpr ⟨?_, ih hrest⟩
          intro other hother
          rcases mem_insert hother with rfl | hlater
          · exact UInt16.lt_of_le_of_ne (UInt16.not_lt.mp hless) (Ne.symm hsame)
          · exact hknown other hlater

/-- One more lap changes the entry of its own number: it stays alone, or against the state that is
known of it. -/
theorem at?_insert {laps : List Lap} (h : Ascending laps) (lap : Lap) (k : UInt16) :
    at? k (lap.insert laps) =
      if k = lap.lapNumber then some (((at? k laps).map lap.keep).getD lap) else at? k laps := by
  induction laps with
  | nil =>
      by_cases hk : k = lap.lapNumber
      · simp [insert, at?_cons, hk]
      · simp [insert, at?_cons, hk, Ne.symm hk]
  | cons known rest ih =>
      obtain ⟨hknown, hrest⟩ := List.pairwise_cons.mp h
      have hlater := ih hrest
      unfold insert
      by_cases hless : lap.lapNumber < known.lapNumber
      · have hnone : at? lap.lapNumber (known :: rest) = none := by
          refine at?_eq_none_of_lt ?_
          intro other hother
          rcases List.mem_cons.mp hother with rfl | hother
          · exact hless
          · exact UInt16.lt_trans hless (hknown other hother)
        rw [if_pos hless, at?_cons]
        by_cases hk : k = lap.lapNumber
        · simp [hk, hnone]
        · simp [hk, Ne.symm hk]
      · rw [if_neg hless]
        by_cases hsame : lap.lapNumber = known.lapNumber
        · rw [if_pos hsame]
          by_cases hk : k = lap.lapNumber
          · by_cases hearlier : lap.finishedAt < known.finishedAt
            · simp [at?_cons, hk, hsame, hearlier, keep]
            · simp [at?_cons, hk, hsame, hearlier, keep]
          · have hne : known.lapNumber ≠ k := fun heq => hk (heq.symm.trans hsame.symm)
            by_cases hearlier : lap.finishedAt < known.finishedAt
            · simp [at?_cons, hk, hne, hearlier]
            · simp [at?_cons, hk, hne, hearlier, Ne.symm hk]
        · rw [if_neg hsame, at?_cons, at?_cons, hlater]
          by_cases hk : k = lap.lapNumber
          · simp [hk, Ne.symm hsame]
          · simp [hk]

/-- Two laps that come in one after the other may come in the other order, unless they are states of
one lap at one moment. -/
theorem insert_comm {first second : Lap}
    (h : first.lapNumber = second.lapNumber → first.finishedAt ≠ second.finishedAt)
    (laps : List Lap) :
    first.insert (second.insert laps) = second.insert (first.insert laps) := by
  have hrank : first.lapNumber = second.lapNumber →
      first.finishedAt.rank ≠ second.finishedAt.rank :=
    fun hsame heq => h hsame (Timestamp.rank_inj.mp heq)
  induction laps with
  | nil => grind [insert, Timestamp.lt_iff]
  | cons known rest ih => grind [insert, Timestamp.lt_iff]

/-- A lap is found under its number. -/
theorem at?_of_mem {laps : List Lap} (h : Ascending laps) {lap : Lap} (hlap : lap ∈ laps) :
    at? lap.lapNumber laps = some lap := by
  induction laps with
  | nil => exact absurd hlap List.not_mem_nil
  | cons known rest ih =>
      obtain ⟨hknown, hrest⟩ := List.pairwise_cons.mp h
      rw [at?_cons]
      rcases List.mem_cons.mp hlap with rfl | hlater
      · rw [if_pos rfl]
      · rw [if_neg (UInt16.ne_of_lt (hknown lap hlater)), ih hrest hlater]

/-! ## The laps of samples -/

theorem ascending_collect (samples : List Recorded) : Ascending (collect samples) := by
  induction samples using List.reverseRecOn with
  | nil => exact List.Pairwise.nil
  | append_singleton samples recorded ih =>
      rw [collect_concat]
      exact ascending_insert ih _

theorem latest?_ofLap_concat (k : UInt16) (samples : List Recorded) (recorded : Recorded) :
    latest? (ofLap k (samples ++ [recorded])) =
      if k = recorded.sample.lapNumber then latest? (ofLap k samples ++ [recorded])
      else latest? (ofLap k samples) := by
  rw [ofLap, List.filter_append]
  by_cases hk : k = recorded.sample.lapNumber
  · simp [ofLap, hk]
  · simp [ofLap, hk, Ne.symm hk]

/-- The lap with a number is the latest sample of that number. -/
theorem at?_collect (k : UInt16) (samples : List Recorded) :
    at? k (collect samples) = (latest? (ofLap k samples)).map ofRecorded := by
  induction samples using List.reverseRecOn with
  | nil => rfl
  | append_singleton samples recorded ih =>
      rw [collect_concat, at?_insert (ascending_collect samples), latest?_ofLap_concat, ih]
      show (if k = recorded.sample.lapNumber then _ else _) = _
      by_cases hk : k = recorded.sample.lapNumber
      · rw [if_pos hk, if_pos hk, latest?_concat]
        cases hcurrent : latest? (ofLap k samples) with
        | none => rfl
        | some current =>
            by_cases hearlier : recorded.createdAt < current.createdAt
            · simp [hearlier, keep, ofRecorded]
            · simp [hearlier, keep, ofRecorded]
      · rw [if_neg hk, if_neg hk]

/-- A number has a lap if it occurs. -/
theorem isSome_at?_collect {k : UInt16} {samples : List Recorded} :
    (at? k (collect samples)).isSome = true ↔
      ∃ recorded ∈ samples, recorded.sample.lapNumber = k := by
  rw [at?_collect, Option.isSome_map, Option.isSome_iff_ne_none, Ne, latest?_eq_none_iff]
  simp [ofLap, List.filter_eq_nil_iff]

/-- The lap with a number is the latest of its samples. -/
theorem exists_latest_of_at? {k : UInt16} {samples : List Recorded} {lap : Lap}
    (h : at? k (collect samples) = some lap) :
    ∃ last, latest? (ofLap k samples) = some last ∧ IsLatest (ofLap k samples) last ∧
      lap = ofRecorded last := by
  rw [at?_collect] at h
  obtain ⟨last, hlast, rfl⟩ := Option.map_eq_some_iff.mp h
  exact ⟨last, hlast, isLatest_of_latest? hlast, rfl⟩

/-- No lap ends after the latest of all samples. -/
theorem finishedAt_le {samples : List Recorded} {last : Recorded} (h : IsLatest samples last) :
    ∀ lap ∈ collect samples, lap.finishedAt ≤ last.createdAt := by
  intro lap hlap
  obtain ⟨own, -, hown, rfl⟩ := exists_latest_of_at? (at?_of_mem (ascending_collect samples) hlap)
  exact h.le own (mem_ofLap.mp hown.mem).1

theorem collect_perm {samples others : List Recorded} (hperm : samples.Perm others)
    (hdistinct : samples.Pairwise ToldApart) : collect others = collect samples := by
  refine (hperm.foldl_eq' ?_ []).symm
  intro first hfirst second hsecond laps
  by_cases heq : first = second
  · rw [heq]
  · have hapart : ToldApart second first := hdistinct.forall hsecond hfirst (Ne.symm heq)
    have hlaps : (ofRecorded second).lapNumber = (ofRecorded first).lapNumber →
        (ofRecorded second).finishedAt ≠ (ofRecorded first).finishedAt := hapart
    exact insert_comm hlaps laps

/-- Laps and last sample agree. The laps have the numbers that occur, each of them once; the lap
with a number shows the latest sample of that number, which is the one that is picked from them. The
latest of all samples is shown by the lap with its number, and no lap ends later. Where no two
samples of a lap were received at the same moment, the order of the samples does not matter. -/
theorem collected_as_latest (samples : List Recorded) :
    Ascending (collect samples) ∧
      (∀ k, (at? k (collect samples)).isSome = true ↔
        ∃ recorded ∈ samples, recorded.sample.lapNumber = k) ∧
      (∀ k lap, at? k (collect samples) = some lap → lap.lapNumber = k ∧
        ∃ last, latest? (ofLap k samples) = some last ∧ IsLatest (ofLap k samples) last ∧
          lap = ofRecorded last) ∧
      (samples ≠ [] → ∃ last, latest? samples = some last ∧ IsLatest samples last ∧
        latest? (ofLap last.sample.lapNumber samples) = some last ∧
        at? last.sample.lapNumber (collect samples) = some (ofRecorded last) ∧
        ∀ lap ∈ collect samples, lap.finishedAt ≤ last.createdAt) ∧
      ∀ others, samples.Perm others → samples.Pairwise ToldApart →
        collect others = collect samples := by
  refine ⟨ascending_collect samples, fun k => isSome_at?_collect, ?_, ?_, ?_⟩
  · intro k lap hlap
    exact ⟨lapNumber_of_at? hlap, exists_latest_of_at? hlap⟩
  · intro hsamples
    have hsome := mt (latest?_eq_none_iff samples).mp hsamples
    obtain ⟨last, hlast⟩ := Option.ne_none_iff_exists'.mp hsome
    have hlatest := isLatest_of_latest? hlast
    have hown : latest? (ofLap last.sample.lapNumber samples) = some last :=
      (hlatest.filter (by simp)).latest?_eq
    refine ⟨last, hlast, hlatest, hown, ?_, finishedAt_le hlatest⟩
    rw [at?_collect, hown]
    rfl
  · intro others hperm
    exact collect_perm hperm

/-- A sample of a lap that was received some seconds after the epoch. -/
def sampleAt (lapNumber : UInt16) (seconds : Nat) : Recorded :=
  { (default : Recorded) with
    sample := { (default : Sample) with lapNumber }
    createdAt := .ofEpoch seconds 0 }

/-- Samples of two laps that come in mixed and out of order, two of them at one moment: the later one
of these in the list is the latest of all, and the other order of the list gives the same laps. -/
theorem collected_of_mixed_laps :
    at? 0 (collect [sampleAt 1 9, sampleAt 0 4, sampleAt 0 9, sampleAt 1 5]) =
        some (ofRecorded (sampleAt 0 9)) ∧
      collect [sampleAt 1 5, sampleAt 0 9, sampleAt 0 4, sampleAt 1 9] =
        collect [sampleAt 1 9, sampleAt 0 4, sampleAt 0 9, sampleAt 1 5] := by
  obtain ⟨-, -, -, hlatest, hperm⟩ :=
    collected_as_latest [sampleAt 1 9, sampleAt 0 4, sampleAt 0 9, sampleAt 1 5]
  obtain ⟨last, hlast, -, -, hlap, -⟩ := hlatest (by simp)
  have hpicked : latest? [sampleAt 1 9, sampleAt 0 4, sampleAt 0 9, sampleAt 1 5] =
      some (sampleAt 0 9) := by decide +kernel
  obtain rfl : last = sampleAt 0 9 := Option.some.inj (hlast.symm.trans hpicked)
  refine ⟨hlap, hperm _ ?_ ?_⟩
  · exact (List.reverse_perm _).symm
  · decide +kernel

end Lap

end RaceIngest

import Mathlib.Data.List.Dedup
import Mathlib.Data.List.Sort
import Mathlib.Data.String.Basic
import Mathlib.Order.WithBot
import RossBot.Money

/-!
# The float of a stock

`core/scanner/float_resolver.py`, and the second pillar of
`core/scanner/scanner.py`. Share counts from several sources are reconciled into one
figure and a confidence. The answer does not depend on the order of the sources, and
a float that may pass the second pillar is one that every usable source of its kind
bears out (`resolveFloat_safe`). `percent` is the `%` format of a `Decimal`; the
dates of the sources, which nothing reads, are left out.
-/

namespace RossBot

/-- `FloatConfidence`. -/
inductive FloatConfidence where
  | high
  | medium
  | low
  | unknown
  deriving DecidableEq, Repr

/-- `PILLAR2_ACCEPTABLE`. -/
def FloatConfidence.pillar2Acceptable : FloatConfidence → Bool
  | .high | .medium => true
  | .low | .unknown => false

/-- `FloatCandidate`. -/
structure FloatCandidate where
  source : String
  shares : Option ℤ
  isFreeFloat : Bool
  deriving DecidableEq

/-- `FloatResult`. -/
structure FloatResult where
  floatShares : Option ℤ
  source : String
  confidence : FloatConfidence
  reason : String
  candidates : List FloatCandidate

/-- `acceptable_for_pillar2`. -/
def FloatResult.acceptableForPillar2 (r : FloatResult) : Bool :=
  r.floatShares.isSome && r.confidence.pillar2Acceptable

/-- A count is there and positive. -/
def FloatCandidate.usable (c : FloatCandidate) : Bool := c.shares.any fun n => decide (0 < n)

/-- The counts of the candidates. -/
def shareCounts (candidates : List FloatCandidate) : List ℤ :=
  candidates.filterMap FloatCandidate.shares

/-- `max(values)`; of no values nothing is asked. -/
def largest (values : List ℤ) : ℤ := values.max?.getD 0

/-- `min(values)`. -/
def smallest (values : List ℤ) : ℤ := values.min?.getD 0

/-- `_spread`. -/
def spread (values : List ℤ) : WithTop ℚ :=
  let lo := smallest values
  let hi := largest values
  if lo ≤ 0 then ⊤ else (((hi : ℚ) - lo) / lo : ℚ)

/-- `"+".join(sorted({c.source for c in candidates}))`. -/
def joinedSources (candidates : List FloatCandidate) : String :=
  "+".intercalate ((candidates.map (·.source)).dedup.insertionSort (· ≤ ·))

/-- `free`: the usable candidates that are true floats. -/
def freeSources (candidates : List FloatCandidate) : List FloatCandidate :=
  (candidates.filter (·.usable)).filter (·.isFreeFloat)

/-- `shares_out`: those that are shares outstanding. -/
def outSources (candidates : List FloatCandidate) : List FloatCandidate :=
  (candidates.filter (·.usable)).filter (!·.isFreeFloat)

/-- `primary`: the free-float sources, if there are any. -/
def primarySources (free sharesOut : List FloatCandidate) : List FloatCandidate :=
  if free.isEmpty then sharesOut else free

/-- What `resolve_float` makes of the usable candidates of both kinds. -/
def reconcile (percent : ℚ → String) (tolerance : ℚ) (free sharesOut tup : List FloatCandidate) :
    FloatResult :=
  let primary := primarySources free sharesOut
  let primaryVals := shareCounts primary
  if 1 < primaryVals.length ∧ (tolerance : WithTop ℚ) < spread primaryVals then
    ⟨some (largest primaryVals), joinedSources primary, .low,
      "primary sources disagree > " ++ percent tolerance ++ "; using conservative max", tup⟩
  else if free.isEmpty = false then
    let chosen := largest (shareCounts free)
    let src := joinedSources free
    match (shareCounts sharesOut).max? with
    | some soMax =>
        if roundDown (soMax * (1 + tolerance)) < chosen then
          ⟨some chosen, src, .low, "free float " ++ toString chosen ++
            " exceeds shares outstanding " ++ toString soMax ++ " — data error", tup⟩
        else ⟨some chosen, src, .high, "free float validated by shares-out", tup⟩
    | none => ⟨some chosen, src, .medium, "single free-float source, unvalidated", tup⟩
  else
    ⟨some (largest primaryVals), joinedSources sharesOut, .medium,
      "shares-outstanding proxy (no true free-float source); upper bound on float", tup⟩

/-- `resolve_float`. -/
def resolveFloat (percent : ℚ → String) (tolerance : ℚ) (candidates : List FloatCandidate) :
    FloatResult :=
  let valid := candidates.filter (·.usable)
  if valid.isEmpty then ⟨none, "none", .unknown, "no usable share-count source", candidates⟩
  else reconcile percent tolerance (freeSources candidates) (outSources candidates) candidates

/-- The second pillar, as `_pillars` decides it. -/
def pillar2Float (floatShares : Option ℤ) (confidence : FloatConfidence) (ceiling : ℤ) : Bool :=
  floatShares.any fun n => confidence.pillar2Acceptable && decide (n ≤ ceiling)

/-! ## The order of the sources -/

section Order

variable {percent : ℚ → String} {tolerance : ℚ}

theorem shareCounts_perm {l l' : List FloatCandidate} (h : l.Perm l') :
    (shareCounts l).Perm (shareCounts l') := h.filterMap _

theorem max?_perm {l l' : List ℤ} (h : l.Perm l') : l.max? = l'.max? := by
  apply Option.ext
  intro m
  rw [List.max?_eq_some_iff, List.max?_eq_some_iff, h.mem_iff]
  simp only [h.mem_iff]

theorem min?_perm {l l' : List ℤ} (h : l.Perm l') : l.min? = l'.min? := by
  apply Option.ext
  intro m
  rw [List.min?_eq_some_iff, List.min?_eq_some_iff, h.mem_iff]
  simp only [h.mem_iff]

theorem largest_perm {l l' : List ℤ} (h : l.Perm l') : largest l = largest l' := by
  rw [largest, max?_perm h, largest]

theorem spread_perm {l l' : List ℤ} (h : l.Perm l') : spread l = spread l' := by
  rw [spread, spread, smallest, min?_perm h, largest_perm h, smallest]

theorem joinedSources_perm {l l' : List FloatCandidate} (h : l.Perm l') :
    joinedSources l = joinedSources l' := by
  have hsources := ((h.map (·.source)).dedup)
  rw [joinedSources, joinedSources]
  congr 1
  refine List.Perm.eq_of_pairwise (fun _ _ _ _ => le_antisymm) ?_ ?_ ?_
  · exact List.pairwise_insertionSort _ _
  · exact List.pairwise_insertionSort _ _
  · exact (List.perm_insertionSort _ _).trans
      (hsources.trans (List.perm_insertionSort _ _).symm)

/-- Two results say the same of the float. -/
structure SameFloat (r r' : FloatResult) : Prop where
  floatShares : r.floatShares = r'.floatShares
  source : r.source = r'.source
  confidence : r.confidence = r'.confidence

theorem primarySources_perm {free free' out out' : List FloatCandidate} (hfree : free.Perm free')
    (hout : out.Perm out') : (primarySources free out).Perm (primarySources free' out') := by
  rw [primarySources, primarySources, hfree.isEmpty_eq]
  split
  · exact hout
  · exact hfree

theorem reconcile_perm {free free' out out' tup tup' : List FloatCandidate}
    (hfree : free.Perm free') (hout : out.Perm out') :
    SameFloat (reconcile percent tolerance free out tup)
      (reconcile percent tolerance free' out' tup') := by
  have hprimary := primarySources_perm hfree hout
  have hvals := shareCounts_perm hprimary
  have hcounts := shareCounts_perm hfree
  -- nothing that is looked at depends on the order
  rw [reconcile, reconcile, hvals.length_eq, spread_perm hvals, largest_perm hvals,
    joinedSources_perm hprimary, hfree.isEmpty_eq, largest_perm hcounts,
    joinedSources_perm hfree, max?_perm (shareCounts_perm hout), joinedSources_perm hout]
  split
  · exact ⟨rfl, rfl, rfl⟩
  · split
    · split
      · dsimp only
        split <;> exact ⟨rfl, rfl, rfl⟩
      · exact ⟨rfl, rfl, rfl⟩
    · exact ⟨rfl, rfl, rfl⟩

theorem resolveFloat_perm {candidates others : List FloatCandidate}
    (h : others.Perm candidates) :
    SameFloat (resolveFloat percent tolerance others)
      (resolveFloat percent tolerance candidates) := by
  have hvalid := h.filter (·.usable)
  rw [resolveFloat, resolveFloat, hvalid.isEmpty_eq]
  split
  · exact ⟨rfl, rfl, rfl⟩
  · exact reconcile_perm (hvalid.filter _) (hvalid.filter _)

end Order

/-! ## What an acceptable float rests on -/

/-- The counts of the usable candidates, of true floats or of shares outstanding. -/
def usableShares (free : Bool) (candidates : List FloatCandidate) : Set ℤ :=
  { n | ∃ c ∈ candidates, c.isFreeFloat = free ∧ c.shares = some n ∧ 0 < n }

/-- The counts the float is chosen from: those of true floats if there are any. -/
def primaryShares (candidates : List FloatCandidate) : Set ℤ :=
  { n | n ∈ usableShares true candidates ∨
    usableShares true candidates = ∅ ∧ n ∈ usableShares false candidates }

/-- `n` is the float the usable sources bear out. -/
structure BorneOut (tolerance : ℚ) (candidates : List FloatCandidate) (n : ℤ) : Prop where
  greatest : IsGreatest (primaryShares candidates) n
  close : ∀ a ∈ primaryShares candidates, ∀ b ∈ primaryShares candidates,
    (a : ℚ) ≤ (1 + tolerance) * b
  validated : (usableShares true candidates).Nonempty →
    ∀ m, IsGreatest (usableShares false candidates) m → (n : ℚ) ≤ (1 + tolerance) * m

section Acceptable

variable {percent : ℚ → String} {tolerance : ℚ} {values : List ℤ}

theorem mem_usable_counts {candidates : List FloatCandidate} {p : FloatCandidate → Bool}
    {n : ℤ} : n ∈ shareCounts ((candidates.filter (·.usable)).filter p) ↔
      ∃ c ∈ candidates, p c = true ∧ c.shares = some n ∧ 0 < n := by
  rw [shareCounts, List.mem_filterMap]
  constructor
  · rintro ⟨c, hc, hn⟩
    obtain ⟨hc, hp⟩ := List.mem_filter.mp hc
    obtain ⟨hc, husable⟩ := List.mem_filter.mp hc
    rw [FloatCandidate.usable, hn] at husable
    exact ⟨c, hc, hp, hn, of_decide_eq_true husable⟩
  · rintro ⟨c, hc, hp, hn, hpos⟩
    have husable : c.usable = true := by
      rw [FloatCandidate.usable, hn]
      exact decide_eq_true hpos
    exact ⟨c, List.mem_filter.mpr ⟨List.mem_filter.mpr ⟨hc, husable⟩, hp⟩, hn⟩

theorem mem_free_counts {candidates : List FloatCandidate} {n : ℤ} :
    n ∈ shareCounts (freeSources candidates) ↔ n ∈ usableShares true candidates :=
  mem_usable_counts

theorem mem_out_counts {candidates : List FloatCandidate} {n : ℤ} :
    n ∈ shareCounts (outSources candidates) ↔ n ∈ usableShares false candidates := by
  rw [outSources, mem_usable_counts]
  simp only [Bool.not_eq_true']
  rfl

/-- A usable candidate has a count. -/
theorem exists_count {candidates : List FloatCandidate} {c : FloatCandidate}
    (hc : c ∈ candidates.filter (·.usable)) : ∃ n, c.shares = some n := by
  have husable := (List.mem_filter.mp hc).2
  cases hn : c.shares with
  | none => simp [FloatCandidate.usable, hn] at husable
  | some n => exact ⟨n, rfl⟩

/-- There are true floats when a usable candidate is one. -/
theorem freeSources_isEmpty {candidates : List FloatCandidate} :
    (freeSources candidates).isEmpty = true ↔ usableShares true candidates = ∅ := by
  rw [List.isEmpty_iff, Set.eq_empty_iff_forall_notMem]
  constructor
  · intro h n hn
    rw [← mem_free_counts, h] at hn
    exact absurd hn List.not_mem_nil
  · intro h
    refine List.eq_nil_iff_forall_not_mem.mpr fun c hc => ?_
    obtain ⟨n, hn⟩ := exists_count (List.mem_of_mem_filter hc)
    exact h n (mem_free_counts.mp (List.mem_filterMap.mpr ⟨c, hc, hn⟩))

/-- Where the float is chosen from. -/
theorem mem_primary_counts {candidates : List FloatCandidate} {n : ℤ} :
    n ∈ shareCounts (primarySources (freeSources candidates) (outSources candidates)) ↔
      n ∈ primaryShares candidates := by
  rw [primarySources]
  by_cases hfree : (freeSources candidates).isEmpty = true
  · have hnone := freeSources_isEmpty.mp hfree
    rw [if_pos hfree, mem_out_counts]
    show _ ↔ n ∈ usableShares true candidates ∨ _
    rw [hnone]
    simp
  · have hsome : ¬ usableShares true candidates = ∅ := fun h => hfree (freeSources_isEmpty.mpr h)
    rw [if_neg hfree, mem_free_counts]
    show _ ↔ n ∈ usableShares true candidates ∨ _
    simp [hsome]

/-- With a usable candidate there is a count to choose. -/
theorem primary_counts_ne_nil {candidates : List FloatCandidate}
    (h : ¬ (candidates.filter (·.usable)).isEmpty = true) :
    shareCounts (primarySources (freeSources candidates) (outSources candidates)) ≠ [] := by
  obtain ⟨c, hc⟩ := List.exists_mem_of_ne_nil _ (fun hnil => h (List.isEmpty_iff.mpr hnil))
  obtain ⟨n, hn⟩ := exists_count hc
  -- without a free float the outstanding shares are asked
  by_cases hfree : (freeSources candidates).isEmpty = true
  · have hout : c ∈ outSources candidates := by
      refine List.mem_filter.mpr ⟨hc, ?_⟩
      cases hkind : c.isFreeFloat
      · rfl
      · have hmem : c ∈ freeSources candidates := List.mem_filter.mpr ⟨hc, hkind⟩
        rw [List.isEmpty_iff.mp hfree] at hmem
        exact absurd hmem List.not_mem_nil
    rw [primarySources, if_pos hfree]
    exact List.ne_nil_of_mem (List.mem_filterMap.mpr ⟨c, hout, hn⟩)
  · obtain ⟨d, hd⟩ := List.exists_mem_of_ne_nil _
      (fun hnil : freeSources candidates = [] => hfree (List.isEmpty_iff.mpr hnil))
    obtain ⟨m, hm⟩ := exists_count (List.mem_of_mem_filter hd)
    rw [primarySources, if_neg hfree]
    exact List.ne_nil_of_mem (List.mem_filterMap.mpr ⟨d, hd, hm⟩)

theorem isGreatest_largest (h : values ≠ []) : IsGreatest { n | n ∈ values } (largest values) := by
  cases hmax : values.max? with
  | none => exact absurd (List.max?_eq_none_iff.mp hmax) h
  | some m =>
      obtain ⟨hmem, hle⟩ := List.max?_eq_some_iff.mp hmax
      rw [largest, hmax]
      exact ⟨hmem, fun n hn => hle n hn⟩

theorem isLeast_smallest (h : values ≠ []) : IsLeast { n | n ∈ values } (smallest values) := by
  cases hmin : values.min? with
  | none => exact absurd (List.min?_eq_none_iff.mp hmin) h
  | some m =>
      obtain ⟨hmem, hle⟩ := List.min?_eq_some_iff.mp hmin
      rw [smallest, hmin]
      exact ⟨hmem, fun n hn => hle n hn⟩

/-- Positive counts that do not disagree lie within the tolerance of each other. -/
theorem close_of_spread (htol : 0 ≤ tolerance) (hpos : ∀ n ∈ values, 0 < n)
    (hspread : ¬ (1 < values.length ∧ (tolerance : WithTop ℚ) < spread values)) :
    ∀ a ∈ values, ∀ b ∈ values, (a : ℚ) ≤ (1 + tolerance) * b := by
  intro a ha b hb
  have hb0 : (0 : ℚ) < b := by exact_mod_cast hpos b hb
  rcases Nat.lt_or_ge 1 values.length with hmany | hone
  · have hne : values ≠ [] := List.ne_nil_of_mem ha
    have hlo := isLeast_smallest hne
    have hlo0 : 0 < smallest values := hpos _ hlo.1
    have hloq : (0 : ℚ) < smallest values := by exact_mod_cast hlo0
    have hle : ((largest values : ℚ) - smallest values) / smallest values ≤ tolerance := by
      by_contra hgt
      refine hspread ⟨hmany, ?_⟩
      rw [spread, if_neg (not_le.mpr hlo0)]
      exact_mod_cast not_le.mp hgt
    rw [div_le_iff₀ hloq] at hle
    have ha' : (a : ℚ) ≤ largest values := by exact_mod_cast (isGreatest_largest hne).2 ha
    have hb' : (smallest values : ℚ) ≤ b := by exact_mod_cast hlo.2 hb
    calc (a : ℚ) ≤ largest values := ha'
      _ ≤ (1 + tolerance) * smallest values := by linarith
      _ ≤ (1 + tolerance) * b := mul_le_mul_of_nonneg_left hb' (by linarith)
  · -- one source only
    have hsame : a = b := by
      obtain ⟨x, rfl⟩ := List.length_eq_one_iff.mp
        (le_antisymm hone (List.length_pos_of_mem ha))
      rw [List.mem_singleton.mp ha, List.mem_singleton.mp hb]
    rw [hsame]
    have hprod : 0 ≤ tolerance * b := mul_nonneg htol hb0.le
    linarith

/-- What an acceptable answer has passed. -/
theorem reconcile_acceptable {free out tup : List FloatCandidate}
    (h : (reconcile percent tolerance free out tup).acceptableForPillar2 = true) :
    (reconcile percent tolerance free out tup).floatShares =
        some (largest (shareCounts (primarySources free out))) ∧
      ¬ (1 < (shareCounts (primarySources free out)).length ∧
        (tolerance : WithTop ℚ) < spread (shareCounts (primarySources free out))) ∧
      (free.isEmpty = false → ∀ m, (shareCounts out).max? = some m →
        largest (shareCounts free) ≤ roundDown (m * (1 + tolerance))) := by
  unfold reconcile at h ⊢
  dsimp only at h ⊢
  -- sources that disagree give a confidence that Pillar 2 refuses
  by_cases hlow : 1 < (shareCounts (primarySources free out)).length ∧
      (tolerance : WithTop ℚ) < spread (shareCounts (primarySources free out))
  · rw [if_pos hlow] at h
    exact absurd h (by simp [FloatResult.acceptableForPillar2, FloatConfidence.pillar2Acceptable])
  rw [if_neg hlow] at h ⊢
  -- no free float, so nothing to compare it with
  cases hfree : free.isEmpty with
  | true =>
      rw [if_neg (by simp)]
      exact ⟨rfl, hlow, fun hno => absurd hno (by simp)⟩
  | false =>
      have hprimary : primarySources free out = free := by
        rw [primarySources, hfree, if_neg (by simp)]
      rw [hfree] at h
      rw [if_pos rfl] at h ⊢
      refine ⟨?_, hlow, fun _ m hm => ?_⟩
      · rw [hprimary]
        split
        · split <;> rfl
        · rfl
      · -- a free float above the outstanding shares is refused, too
        simp only [hm] at h
        by_contra hgt
        rw [if_pos (not_le.mp hgt)] at h
        exact absurd h
          (by simp [FloatResult.acceptableForPillar2, FloatConfidence.pillar2Acceptable])

/-- **An acceptable float is borne out.** -/
theorem resolveFloat_borneOut (htol : 0 ≤ tolerance) {candidates : List FloatCandidate}
    (h : (resolveFloat percent tolerance candidates).acceptableForPillar2 = true) :
    ∃ n, (resolveFloat percent tolerance candidates).floatShares = some n ∧
      BorneOut tolerance candidates n := by
  unfold resolveFloat at h ⊢
  dsimp only at h ⊢
  by_cases hvalid : (candidates.filter (·.usable)).isEmpty = true
  · rw [if_pos hvalid] at h
    exact absurd h (by simp [FloatResult.acceptableForPillar2])
  rw [if_neg hvalid] at h ⊢
  obtain ⟨hshares, hagree, hbound⟩ := reconcile_acceptable h
  refine ⟨_, hshares, ?_, ?_, ?_⟩
  · -- the greatest of the primary counts is returned
    have hgreatest := isGreatest_largest (primary_counts_ne_nil hvalid)
    exact ⟨mem_primary_counts.mp hgreatest.1, fun n hn => hgreatest.2 (mem_primary_counts.mpr hn)⟩
  · -- no two of them are further apart than the tolerance
    intro a ha b hb
    refine close_of_spread htol ?_ hagree a (mem_primary_counts.mpr ha) b
      (mem_primary_counts.mpr hb)
    intro n hn
    rcases mem_primary_counts.mp hn with ⟨_, _, _, _, hpos⟩ | ⟨_, _, _, _, _, hpos⟩ <;> exact hpos
  · -- the free floats stay within the outstanding shares
    rintro ⟨s, hs⟩ m hm
    have hfree : (freeSources candidates).isEmpty = false := by
      by_contra hempty
      rw [freeSources_isEmpty.mp (by simpa using hempty)] at hs
      exact absurd hs (Set.notMem_empty s)
    have hmax : (shareCounts (outSources candidates)).max? = some m :=
      List.max?_eq_some_iff.mpr ⟨mem_out_counts.mpr hm.1, fun n hn => hm.2 (mem_out_counts.mp hn)⟩
    have hpos : (0 : ℚ) < m := by
      obtain ⟨_, _, _, _, hpos⟩ := hm.1
      exact_mod_cast hpos
    have hle := hbound hfree m hmax
    have hprod : 0 ≤ (m : ℚ) * (1 + tolerance) := mul_nonneg hpos.le (by linarith)
    rw [primarySources, hfree, if_neg (by simp)]
    calc ((largest (shareCounts (freeSources candidates)) : ℤ) : ℚ)
        ≤ roundDown (m * (1 + tolerance)) := by exact_mod_cast hle
      _ ≤ m * (1 + tolerance) := roundDown_le hprod
      _ = (1 + tolerance) * m := mul_comm _ _

end Acceptable

/-- Two vendors close to each other, a count of shares outstanding, and two that are no use. -/
def fiveSources : List FloatCandidate :=
  [⟨"fmp", some 8000000, true⟩, ⟨"sec_edgar", some 10000000, false⟩, ⟨"massive", some 8200000, true⟩,
    ⟨"finnhub", none, true⟩, ⟨"vendor", some (-1), true⟩]

example : (resolveFloat (fun _ => "5%") (5 / 100) fiveSources).source = "fmp+massive" ∧
    (resolveFloat (fun _ => "5%") (5 / 100) fiveSources).confidence = .high := by decide +kernel

end RossBot

import RossBot.Lib.Dict
import RossBot.Lib.Runs
import RossBot.Market

/-!
# Stale feeds

`StalenessDetector` of `core/data/feed_integrity.py`. It keeps one instant a feed, the
latest that was recorded, and asks that one whether the feed is stale. What it
answers is what all recorded instants together say (`isStale_iff`): whatever the order
they came in, and however the thresholds were changed in between.
-/

namespace RossBot

open Lib

/-- `StalenessDetector`. -/
structure StalenessDetector where
  defaultThreshold : ℚ
  /-- `_last`. -/
  last : Dict String Time
  /-- `_thresholds`. -/
  thresholds : Dict String ℚ

/-- `FeedStaleError`: what its text says of the gap. -/
inductive FeedStaleError where
  | neverReceived (key : String)
  | gap (key : String) (gap : ℚ)
  deriving DecidableEq

namespace StalenessDetector

/-- `StalenessDetector(default_threshold)`. -/
def new (defaultThreshold : ℚ) : StalenessDetector := ⟨defaultThreshold, ∅, ∅⟩

/-- `set_threshold`. -/
def setThreshold (d : StalenessDetector) (key : String) (threshold : ℚ) : StalenessDetector :=
  { d with thresholds := d.thresholds.set key threshold }

/-- `record`. -/
def record (d : StalenessDetector) (key : String) (ts : Time) : StalenessDetector :=
  match d.last.get? key with
  | none => { d with last := d.last.set key ts }
  | some prev => if prev < ts then { d with last := d.last.set key ts } else d

/-- `gap`. -/
def gap (d : StalenessDetector) (key : String) (now : Time) : Option ℚ :=
  (d.last.get? key).map fun last => now - last

/-- `is_stale`. -/
def isStale (d : StalenessDetector) (key : String) (now : Time) : Bool :=
  match d.last.get? key with
  | none => true
  | some last => decide ((d.thresholds.get? key).getD d.defaultThreshold < now - last)

/-- `check`. -/
def check (d : StalenessDetector) (key : String) (now : Time) : Except FeedStaleError Unit :=
  if d.isStale key now then
    match d.gap key now with
    | none => .error (.neverReceived key)
    | some gap => .error (.gap key gap)
  else .ok ()

/-! ## Calls -/

/-- What the feeds and the operator ask of a detector. -/
inductive Call where
  | setThreshold (key : String) (threshold : ℚ)
  | record (key : String) (ts : Time)

/-- The feed a call is about. -/
def Call.key : Call → String
  | .setThreshold key _ | .record key _ => key

/-- What a call makes of the detector. -/
def answer (d : StalenessDetector) : Call → StalenessDetector
  | .setThreshold key threshold => d.setThreshold key threshold
  | .record key ts => d.record key ts

/-- A detector after some calls. -/
def after (defaultThreshold : ℚ) (calls : List Call) : StalenessDetector :=
  calls.foldl answer (.new defaultThreshold)

/-- The instants recorded for a feed. -/
def recorded (key : String) (calls : List Call) : List Time :=
  calls.filterMap fun
    | .record k ts => if k = key then some ts else none
    | .setThreshold _ _ => none

/-- What a call makes of the threshold of a feed. -/
def thresholdStep (key : String) (threshold : ℚ) : Call → ℚ
  | .setThreshold k t => if k = key then t else threshold
  | .record _ _ => threshold

/-- The threshold of a feed: the last one set for it, or the default. -/
def thresholdOf (defaultThreshold : ℚ) (key : String) (calls : List Call) : ℚ :=
  calls.foldl (thresholdStep key) defaultThreshold

/-! ## What the calls leave -/

/-- The later of what is there and a new instant. -/
def later : Option Time → Time → Option Time
  | none, ts => some ts
  | some prev, ts => some (max prev ts)

/-- `o` is the latest of these instants, and there is none when there are none. -/
def LatestOf (instants : List Time) : Option Time → Prop
  | none => instants = []
  | some last => last ∈ instants ∧ ∀ ts ∈ instants, ts ≤ last

theorem LatestOf.snoc {instants : List Time} {o : Option Time} (h : LatestOf instants o)
    (ts : Time) : LatestOf (instants ++ [ts]) (later o ts) := by
  cases o with
  | none =>
      change instants = [] at h
      subst h
      exact ⟨List.mem_singleton.mpr rfl, fun t ht => (List.mem_singleton.mp ht).le⟩
  | some prev =>
      obtain ⟨hmem, hle⟩ := h
      refine ⟨?_, ?_⟩
      · -- the later of the two is one of them
        rcases max_choice prev ts with hmax | hmax
        · rw [hmax]
          exact List.mem_append_left _ hmem
        · rw [hmax]
          exact List.mem_append_right _ (List.mem_singleton.mpr rfl)
      · intro t ht
        rcases List.mem_append.mp ht with ht | ht
        · exact (hle t ht).trans (le_max_left ..)
        · rw [List.mem_singleton.mp ht]
          exact le_max_right ..

theorem last_record (d : StalenessDetector) (key : String) (ts : Time) (k : String) :
    (d.record key ts).last.get? k
      = if k = key then later (d.last.get? k) ts else d.last.get? k := by
  have hset : (d.last.set key ts).get? k = if k = key then some ts else d.last.get? k :=
    Dict.get?_set ..
  unfold record
  cases hlast : d.last.get? key with
  | none =>
      refine hset.trans (if_ctx_congr Iff.rfl (fun hk => ?_) fun _ => rfl)
      rw [hk, hlast, later]
  -- of the two instants the later is kept
  | some prev =>
      have hkey : k = key → later (d.last.get? k) ts = some (max prev ts) := by
        intro hk
        rw [hk, hlast, later]
      dsimp only
      split
      · rename_i hlt
        refine hset.trans (if_ctx_congr Iff.rfl (fun hk => ?_) fun _ => rfl)
        rw [hkey hk, max_eq_right hlt.le]
      · rename_i hge
        split
        · rename_i hk
          rw [hkey hk, max_eq_left (not_lt.mp hge), hk, hlast]
        · rfl

theorem recorded_setThreshold (key k : String) (t : ℚ) (calls : List Call) :
    recorded key (calls ++ [.setThreshold k t]) = recorded key calls :=
  List.filterMap_append.trans (List.append_nil _)

theorem recorded_record (key k : String) (ts : Time) (calls : List Call) :
    recorded key (calls ++ [.record k ts])
      = if k = key then recorded key calls ++ [ts] else recorded key calls := by
  rw [recorded, List.filterMap_append]
  split
  · rename_i hk
    rw [List.filterMap_cons_some (b := ts) (by simp [hk])]
    rfl
  · rename_i hk
    rw [List.filterMap_cons_none (by simp [hk])]
    exact List.append_nil _

/-- **A detector keeps the latest instant recorded for a feed.** -/
theorem last_after (defaultThreshold : ℚ) (calls : List Call) (key : String) :
    LatestOf (recorded key calls) ((after defaultThreshold calls).last.get? key) := by
  induction calls using List.reverseRecOn with
  | nil => exact rfl
  | append_singleton calls c ih =>
      rw [after, foldl_snoc]
      change LatestOf _ (((after defaultThreshold calls).answer c).last.get? key)
      cases c with
      | setThreshold k threshold =>
          rw [recorded_setThreshold]
          exact ih
      -- only its own key's instant moves
      | record k ts =>
          rw [answer, last_record, recorded_record]
          by_cases hk : k = key
          · rw [if_pos hk, if_pos hk.symm]
            exact ih.snoc ts
          · rw [if_neg hk, if_neg (Ne.symm hk)]
            exact ih

/-- The threshold it compares with is the last one set for the feed. -/
theorem threshold_after (defaultThreshold : ℚ) (calls : List Call) (key : String) :
    ((after defaultThreshold calls).thresholds.get? key).getD
        (after defaultThreshold calls).defaultThreshold
      = thresholdOf defaultThreshold key calls := by
  -- the default is set once
  have hdefault : ∀ calls : List Call,
      (after defaultThreshold calls).defaultThreshold = defaultThreshold := by
    refine foldl_invariant (I := fun d : StalenessDetector =>
      d.defaultThreshold = defaultThreshold) rfl ?_
    rintro d (⟨k, t⟩ | ⟨k, ts⟩) hd
    · exact hd
    · rw [answer, record]
      split
      · exact hd
      · split <;> exact hd
  induction calls using List.reverseRecOn with
  | nil => rfl
  | append_singleton calls c ih =>
      rw [hdefault] at ih ⊢
      rw [after, foldl_snoc, thresholdOf, foldl_snoc]
      change (((after defaultThreshold calls).answer c).thresholds.get? key).getD _ = _
      cases c with
      | setThreshold k t =>
          rw [answer, setThreshold, Dict.get?_set, thresholdStep]
          by_cases hk : key = k
          · rw [if_pos hk, if_pos hk.symm]
            rfl
          · rw [if_neg hk, if_neg (Ne.symm hk)]
            exact ih
      -- recording an instant sets no threshold
      | record k ts =>
          have hsame : ((after defaultThreshold calls).record k ts).thresholds
              = (after defaultThreshold calls).thresholds := by
            unfold record
            split
            · rfl
            · split <;> rfl
          rw [answer, hsame]
          exact ih

/-! ## When a feed is stale -/

/-- What `check` says of the instants recorded for a feed and its threshold. -/
structure Verdict (key : String) (now : Time) (instants : List Time) (threshold : ℚ)
    (answer : Except FeedStaleError Unit) : Prop where
  /-- It is silent when some instant is recent enough. -/
  fresh : answer = .ok () ↔ ∃ ts ∈ instants, now - ts ≤ threshold
  /-- A feed that was never seen is stale. -/
  never : answer = .error (.neverReceived key) ↔ instants = []
  /-- The gap reported is the one from the latest instant. -/
  gap : ∀ g, answer = .error (.gap key g) →
    threshold < g ∧ now - g ∈ instants ∧ ∀ ts ∈ instants, g ≤ now - ts

/-- **Staleness is a question to all recorded instants.** After any calls, in any order, `check`
is silent exactly when some instant recorded for the feed is at most the threshold back, the one
last set for the feed; and what it raises otherwise names the smallest gap. -/
theorem check_verdict (defaultThreshold : ℚ) (calls : List Call) (key : String) (now : Time) :
    Verdict key now (recorded key calls) (thresholdOf defaultThreshold key calls)
      ((after defaultThreshold calls).check key now) := by
  have hlast := last_after defaultThreshold calls key
  unfold check isStale gap
  rw [threshold_after]
  cases hkey : (after defaultThreshold calls).last.get? key with
  -- nothing was recorded
  | none =>
      rw [hkey] at hlast
      change recorded key calls = [] at hlast
      rw [hlast]
      exact ⟨by simp, by simp, by simp⟩
  | some last =>
      rw [hkey] at hlast
      obtain ⟨hmem, hle⟩ := hlast
      have hne : recorded key calls ≠ [] := List.ne_nil_of_mem hmem
      dsimp only [Option.map_some]
      by_cases hgap : thresholdOf defaultThreshold key calls < now - last
      · -- stale: the last instant is too far back, so all are
        rw [if_pos (decide_eq_true hgap)]
        refine ⟨iff_of_false (by simp) ?_, iff_of_false (by simp) hne, ?_⟩
        · rintro ⟨ts, hts, hfresh⟩
          have := hle ts hts
          linarith
        · intro g hg
          obtain rfl : now - last = g := by simpa using hg
          refine ⟨hgap, by rwa [sub_sub_cancel], ?_⟩
          intro ts hts
          exact sub_le_sub_left (hle ts hts) now
      · -- fresh by the last instant
        rw [if_neg (by simpa using hgap)]
        exact ⟨iff_of_true rfl ⟨last, hmem, not_lt.mp hgap⟩, iff_of_false (by simp) hne, by simp⟩

/-- A bar that comes in late does not move the clock back, and a shorter threshold is used from
when it is set. -/
example : let calls := [Call.record "bars" 100, .record "bars" 97, .setThreshold "bars" 2]
    ((after 5 calls).check "bars" 102, (after 5 calls).check "bars" 103,
      (after 5 calls).check "tape" 103)
      = (.ok (), .error (.gap "bars" 3), .error (.neverReceived "tape")) := by decide +kernel

end StalenessDetector

end RossBot

import RossBot.Demo.Models
import RossBot.Lib.Batches
import RossBot.Lib.Ranking
import RossBot.News.Classifier

/-!
# The demo scan

`DemoEngine._run_scan`, with `core/demo/universe.py`. The snapshots of the universe
come in batches; the wide net ranks what moves; and what passes the five pillars is
what the strategy trades. `upper` is `str.upper`.
-/

namespace RossBot

open Lib

/-! ## The universe -/

/-- `STARTER_UNIVERSE`. -/
def starterUniverse : List Symbol :=
  [
    "CLOV", "MVIS", "WISH", "BBIG", "ATER", "PROG", "GFAI", "MULN", "IDEX", "NKLA", "SNDL",
    "CENN", "FFIE", "XELA", "GOVX", "WISA", "ILUS", "ZEST", "VERB", "INPX", "TNXP", "CYCC",
    "SIGA", "BTBT", "AGRI", "AULT", "GREE", "MRIN", "CODA", "AGTC", "NCTY", "KPLT", "OPAD",
    "ATXI", "TPVG", "MVST", "GMDA", "WKHS", "RIDE", "SOLO", "GOEV", "NXTP", "XBIO", "ITRM",
    "MFON", "EDTX", "PROP", "SPGX", "CPRX", "MDRX", "GURE", "BHAT", "MEIP", "ENTX", "ACST",
    "BIVI", "MDNA", "ATOS", "MMAT", "SEEL", "PALI", "PHVS", "CTRM", "BLNK", "SPCE", "IDAI",
    "LIQT", "MYSZ", "NAKD", "BLTM", "HYMC", "NTRB", "UAVS", "HCDI", "CUEN", "CANN", "DPLO",
    "ENVB", "LCTX", "MARA", "RIOT", "HIPO", "GOCO", "ANTE", "EZGO", "MOGO", "CGEN", "MOXC",
    "DRIO", "CETX", "BNMV", "AABB", "SXTC", "USAU", "ATNF", "BURG", "CLPS", "IMPP", "INDO",
    "ISIG", "KALI", "LIFW", "MICT", "NXRT", "OPHC", "PLRX", "QMCI", "RELI", "RVNC", "SCOA",
    "SFIO", "SHIP", "TAOP", "TPCS", "UONE", "UTME", "VCNX", "VNRX", "WTRH", "XTIA", "ZDGE", "ZIVO"
  ]

/-- `FLOAT_LOOKUP`. -/
def floatLookup : List (Symbol × ℕ) :=
  [
    ("CLOV", 410000000), ("MVIS", 180000000), ("ATER", 35000000), ("PROG", 480000000),
    ("GFAI", 6500000), ("MULN", 75000000), ("IDEX", 95000000), ("NKLA", 90000000),
    ("CENN", 12000000), ("FFIE", 18000000), ("XELA", 9000000), ("GOVX", 14000000),
    ("WISA", 4500000), ("ILUS", 19000000), ("TNXP", 7500000), ("CYCC", 3200000),
    ("SIGA", 38000000), ("BTBT", 110000000), ("AULT", 16000000), ("GREE", 60000000),
    ("MRIN", 11000000), ("KPLT", 13000000), ("MVST", 95000000), ("GMDA", 8000000),
    ("WKHS", 160000000), ("RIDE", 70000000), ("SOLO", 95000000), ("GOEV", 40000000),
    ("XBIO", 2100000), ("ITRM", 6800000), ("CPRX", 100000000), ("BHAT", 5000000),
    ("MEIP", 13000000), ("ENTX", 9500000), ("ACST", 4000000), ("BIVI", 6000000),
    ("MDNA", 12000000), ("ATOS", 17000000), ("MMAT", 320000000), ("SEEL", 9000000),
    ("PALI", 5500000), ("PHVS", 8500000), ("CTRM", 14000000), ("BLNK", 60000000),
    ("SPCE", 290000000), ("MYSZ", 7000000), ("NAKD", 19500000), ("HYMC", 90000000),
    ("NTRB", 3500000), ("UAVS", 11000000), ("HCDI", 6000000), ("CUEN", 5000000),
    ("ENVB", 7500000), ("LCTX", 95000000), ("MARA", 280000000), ("RIOT", 230000000),
    ("HIPO", 18000000), ("MOGO", 70000000), ("CGEN", 80000000), ("MOXC", 8000000),
    ("DRIO", 19000000), ("CETX", 4500000), ("SXTC", 6500000), ("USAU", 11000000),
    ("ATNF", 7000000), ("CLPS", 9000000), ("IMPP", 12000000), ("INDO", 9500000),
    ("ISIG", 2800000), ("LIFW", 14000000), ("MICT", 17000000), ("OPHC", 13000000),
    ("RELI", 8000000), ("RVNC", 70000000), ("SHIP", 16000000), ("UONE", 4000000),
    ("VCNX", 6000000), ("VNRX", 10000000), ("WTRH", 19000000), ("XTIA", 3000000),
    ("ZDGE", 13000000), ("ZIVO", 8500000)
  ]

/-- `float_for`. -/
def floatFor (upper : String → String) (symbol : Symbol) : Option ℕ :=
  floatLookup.lookup (upper symbol)

namespace DemoScan

/-! ## The constants -/

/-- `TIER_A_CHANGE_MIN`. -/
def tierAChangeMin : ℚ := 4

/-- `TIER_A_PRICE_MIN`. -/
def tierAPriceMin : ℚ := 1

/-- `TIER_A_PRICE_MAX`. -/
def tierAPriceMax : ℚ := 20

/-- `TIER_B_CHANGE_MIN`. -/
def tierBChangeMin : ℚ := 10

/-- `TIER_B_PRICE_MIN`. -/
def tierBPriceMin : ℚ := 2

/-- `TIER_B_PRICE_MAX`. -/
def tierBPriceMax : ℚ := 20

/-- `TIER_B_FLOAT_MAX`. -/
def tierBFloatMax : ℕ := 20000000

/-- `TIER_B_RVOL_MIN`. -/
def tierBRvolMin : ℚ := 5

/-! ## What comes in and what goes out -/

/-- What `get_snapshot` says of a symbol. -/
structure Snapshot where
  price : Option ℚ
  changePct : ℚ
  volume : ℕ

/-- What a scan asks while it runs. -/
structure Feed where
  /-- `get_snapshot`. -/
  snapshot : List Symbol → Dict Symbol Snapshot
  /-- `get_rvol`, with the volume of the snapshot; it may raise. -/
  rvol : Symbol → ℕ → Option (Option ℚ)
  /-- `_catalyst_verifier.verify`, if there is a verifier; it may raise. -/
  verify : Option (Symbol → Option CatalystResult)

/-- The tier of a watchlist entry. -/
inductive Tier where
  | a
  | b
  deriving DecidableEq, Repr

/-- `pillar_flags`. -/
structure PillarFlags where
  p1Price : Bool
  p2Float : Bool
  p3Rvol : Bool
  p4Roc : Bool
  p5Catalyst : Bool
  deriving DecidableEq, Repr

/-- The first four. -/
def PillarFlags.firstFour (f : PillarFlags) : Bool := f.p1Price && f.p2Float && f.p3Rvol && f.p4Roc

/-- `make_watchlist_entry`, with the keys a scan adds; the amounts are printed with two decimals. -/
structure WatchlistEntry where
  symbol : Symbol
  tier : Tier
  price : ℚ
  rvol : Option ℚ
  floatShares : Option ℕ
  catalyst : String
  pillarFlags : PillarFlags
  changePct : ℚ
  catalystType : Option String
  pillar5Status : Option CatalystStatus
  deriving DecidableEq

/-! ## The scan -/

/-- The snapshots of the universe, `max(1, snapshot_batch)` symbols at a time. -/
def snapshots (feed : Feed) (snapshotBatch : ℤ) : Dict Symbol Snapshot :=
  gather feed.snapshot (max 1 snapshotBatch).toNat starterUniverse

/-- The wide net. -/
def inWideNet (snap : Snapshot) : Bool :=
  match snap.price with
  | none => false
  | some price => decide (tierAChangeMin ≤ snap.changePct) && decide (tierAPriceMin ≤ price)
      && decide (price ≤ tierAPriceMax)

/-- `a_hits`, the greatest change first. -/
def aHits (feed : Feed) (snapshotBatch : ℤ) : List (Symbol × Snapshot) :=
  ranked (fun hit => hit.2.changePct)
    ((snapshots feed snapshotBatch).items.filter fun hit => inWideNet hit.2)

/-- Pillar 5: the label, the type and the flag; `none` drops the symbol. -/
def catalyst (feed : Feed) (symbol : Symbol) : Option (String × Option String × Bool) :=
  match feed.verify with
  | none => some ("DEMO_BYPASS (no licensed news feed)", none, true)
  | some verify =>
      match verify symbol with
      | none => some ("UNVERIFIED (stream connecting)", none, false)
      | some result =>
          match result.status with
          | .skip => none
          | .verified =>
              some ("VERIFIED:" ++ result.catalystType,
                if result.catalystType = "" then none else some result.catalystType, true)
          | .unverified => some ("UNVERIFIED:" ++ result.reason, none, false)

/-- The flags of a hit. -/
def pillarFlags (upper : String → String) (hit : Symbol × Snapshot) (price : ℚ) (rvol : Option ℚ)
    (p5 : Bool) : PillarFlags where
  p1Price := decide (tierBPriceMin ≤ price) && decide (price ≤ tierBPriceMax)
  p2Float := (floatFor upper hit.1).any fun flt => decide (flt ≤ tierBFloatMax)
  p3Rvol := rvol.any fun rvol => decide (tierBRvolMin ≤ rvol)
  p4Roc := decide (tierBChangeMin ≤ hit.2.changePct)
  p5Catalyst := p5

/-- One hit: what it adds to the two tiers. `none`: `get_rvol` raised. -/
def scanHit (upper : String → String) (feed : Feed)
    (tiers : List WatchlistEntry × List WatchlistEntry) (hit : Symbol × Snapshot) :
    Option (List WatchlistEntry × List WatchlistEntry) :=
  let price := hit.2.price.getD 0  -- a hit has a price
  match feed.rvol hit.1 hit.2.volume with
  | none => none
  | some rvol =>
      match catalyst feed hit.1 with
      | none => some tiers
      | some (label, type, p5) =>
          let flags := pillarFlags upper hit price rvol p5
          let entry : WatchlistEntry :=
            { symbol := hit.1
              tier := .a
              price := quantize2 price
              rvol := rvol.map quantize2
              floatShares := floatFor upper hit.1
              catalyst := label
              pillarFlags := flags
              changePct := quantize2 hit.2.changePct
              catalystType := type
              pillar5Status := none }
          let tierA := tiers.1 ++ [entry]
          if flags.firstFour && p5 then
            some (tierA, tiers.2 ++ [{ entry with tier := .b, pillar5Status := some .verified }])
          else if flags.firstFour then
            -- `tier_a[-1] = a_entry`
            some (tierA.dropLast ++ [{ entry with pillar5Status := some .unverified }], tiers.2)
          else some (tierA, tiers.2)

/-- `_run_scan`: the two tiers. -/
def runScan (upper : String → String) (snapshotBatch : ℤ) (feed : Feed) :
    Option (List WatchlistEntry × List WatchlistEntry) :=
  (aHits feed snapshotBatch).foldlM (scanHit upper feed) ([], [])

/-! ## What the tiers are for -/

/-- The verifier says SKIP. -/
def Skipped (feed : Feed) (symbol : Symbol) : Prop :=
  ∃ verify result, feed.verify = some verify ∧ verify symbol = some result ∧ result.status = .skip

/-- **The five pillars.** Without a verifier the fifth is not asked for. -/
structure FivePillars (upper : String → String) (feed : Feed) (hit : Symbol × Snapshot) : Prop where
  price : ∃ price, hit.2.price = some price ∧ tierBPriceMin ≤ price ∧ price ≤ tierBPriceMax
  float : ∃ flt, floatFor upper hit.1 = some flt ∧ flt ≤ tierBFloatMax
  rvol : ∃ rvol, feed.rvol hit.1 hit.2.volume = some (some rvol) ∧ tierBRvolMin ≤ rvol
  roc : tierBChangeMin ≤ hit.2.changePct
  catalyst : ∀ verify, feed.verify = some verify →
    ∃ result, verify hit.1 = some result ∧ result.status = .verified

variable {upper : String → String} {feed : Feed} {hit : Symbol × Snapshot} {batch : ℤ}

/-- What passes the pillars is in the wide net. -/
theorem FivePillars.inWideNet (h : FivePillars upper feed hit) : inWideNet hit.2 = true := by
  obtain ⟨price, hp, hmin, hmax⟩ := h.price
  have hchange : tierAChangeMin ≤ hit.2.changePct :=
    le_trans (by norm_num [tierAChangeMin, tierBChangeMin]) h.roc
  have hlow : tierAPriceMin ≤ price :=
    le_trans (by norm_num [tierAPriceMin, tierBPriceMin]) hmin
  have hhigh : price ≤ tierAPriceMax := hmax
  simp [DemoScan.inWideNet, hp, hchange, hlow, hhigh]

/-- A verified symbol is not one to skip. -/
theorem FivePillars.not_skipped (h : FivePillars upper feed hit) : ¬ Skipped feed hit.1 := by
  rintro ⟨verify, result, hv, hr, hskip⟩
  obtain ⟨result', hr', hverified⟩ := h.catalyst verify hv
  obtain rfl := Option.some.inj (hr.symm.trans hr')
  exact absurd (hskip.symm.trans hverified) (by decide)

theorem catalyst_none_iff {symbol : Symbol} : catalyst feed symbol = none ↔ Skipped feed symbol := by
  unfold catalyst Skipped
  cases hv : feed.verify with
  | none => simp
  | some verify =>
      cases hr : verify symbol with
      | none => simp [hr]
      | some result =>
          cases hs : result.status <;> simp [hr, hs]

/-- The fifth flag. -/
theorem catalyst_flag {symbol : Symbol} {label : String} {type : Option String} {p5 : Bool}
    (h : catalyst feed symbol = some (label, type, p5)) : p5 = true ↔
      ∀ verify, feed.verify = some verify →
        ∃ result, verify symbol = some result ∧ result.status = .verified := by
  unfold catalyst at h
  -- without a verifier the pillar is taken as given
  cases hv : feed.verify with
  | none =>
      rw [hv] at h
      obtain ⟨-, -, rfl⟩ := by simpa using h
      simp
  | some verify =>
      rw [hv] at h
      dsimp only at h
      -- the verifier may have no answer
      cases hr : verify symbol with
      | none =>
          rw [hr] at h
          obtain ⟨-, -, rfl⟩ := by simpa using h
          simp [hr]
      | some result =>
          rw [hr] at h
          dsimp only at h
          cases hs : result.status with
          | skip => rw [hs] at h; exact absurd h (by simp)
          | verified =>
              rw [hs] at h
              obtain ⟨-, -, rfl⟩ := by simpa using h
              simp [hr, hs]
          | unverified =>
              rw [hs] at h
              obtain ⟨-, -, rfl⟩ := by simpa using h
              simp [hr, hs]

variable (upper) in
/-- The flags are the pillars. -/
theorem pillarFlags_iff {price : ℚ} (hp : hit.2.price = some price) {rvol : Option ℚ}
    (hr : feed.rvol hit.1 hit.2.volume = some rvol) {label : String} {type : Option String}
    {p5 : Bool} (hc : catalyst feed hit.1 = some (label, type, p5)) :
    ((pillarFlags upper hit price rvol p5).firstFour && p5) = true
      ↔ FivePillars upper feed hit := by
  simp only [pillarFlags, PillarFlags.firstFour, Bool.and_eq_true, decide_eq_true_eq,
    Option.any_eq_true]
  rw [catalyst_flag hc]
  constructor
  · rintro ⟨⟨⟨⟨hprice, flt, hf, hflt⟩, r, hrr, hrvol⟩, hroc⟩, hcat⟩
    exact ⟨⟨price, hp, hprice⟩, ⟨flt, hf, by simpa using hflt⟩, ⟨r, hrr ▸ hr, by simpa using hrvol⟩,
      hroc, hcat⟩
  · rintro ⟨⟨price', hp', hprice⟩, ⟨flt, hf, hflt⟩, ⟨r, hrr, hrvol⟩, hroc, hcat⟩
    obtain rfl := Option.some.inj (hp.symm.trans hp')
    obtain rfl := Option.some.inj (hr.symm.trans hrr)
    exact ⟨⟨⟨⟨hprice, flt, hf, by simpa using hflt⟩, r, rfl, by simpa using hrvol⟩, hroc⟩, hcat⟩

/-- **One hit**: dropped, or added to tier A, and to tier B when it passes the five pillars. -/
theorem scanHit_cases {tiers tiers' : List WatchlistEntry × List WatchlistEntry}
    (hnet : inWideNet hit.2 = true) (h : scanHit upper feed tiers hit = some tiers') :
    (Skipped feed hit.1 ∧ tiers' = tiers)
      ∨ (¬ Skipped feed hit.1 ∧ ∃ e : WatchlistEntry, e.symbol = hit.1 ∧ e.tier = .a
        ∧ ((FivePillars upper feed hit ∧ e.pillar5Status = none ∧ tiers' = (tiers.1 ++ [e],
            tiers.2 ++ [{ e with tier := .b, pillar5Status := some .verified }]))
          ∨ (¬ FivePillars upper feed hit ∧ tiers' = (tiers.1 ++ [e], tiers.2)))) := by
  -- a hit of the wide net has a price
  obtain ⟨price, hp⟩ : ∃ price, hit.2.price = some price := by
    cases hp : hit.2.price with
    | none => rw [inWideNet, hp] at hnet; exact absurd hnet (by simp)
    | some price => exact ⟨price, rfl⟩
  unfold scanHit at h
  dsimp only at h
  cases hr : feed.rvol hit.1 hit.2.volume with
  | none => rw [hr] at h; exact absurd h (by simp)
  | some rvol =>
      rw [hr, hp] at h
      dsimp only at h
      -- skipped: it is in neither tier
      cases hc : catalyst feed hit.1 with
      | none =>
          rw [hc] at h
          exact Or.inl ⟨catalyst_none_iff.mp hc, (Option.some.inj h).symm⟩
      | some reading =>
          obtain ⟨label, type, p5⟩ := reading
          rw [hc] at h
          have hskip : ¬ Skipped feed hit.1 := fun hs =>
            absurd (hc.symm.trans (catalyst_none_iff.mpr hs)) (by simp)
          have hflags := pillarFlags_iff upper hp hr hc
          refine Or.inr ⟨hskip, ?_⟩
          dsimp only [Option.getD_some] at h
          -- in tier B with the flags of all five, in tier A either way
          split at h
          · rename_i hall
            exact ⟨_, rfl, rfl, Or.inl ⟨hflags.mp hall, rfl, (Option.some.inj h).symm⟩⟩
          · rename_i hnot
            have hfive : ¬ FivePillars upper feed hit := fun hf => hnot (hflags.mpr hf)
            split at h
            · -- the entry put in for tier A is taken out and put in again, changed
              rw [List.dropLast_concat] at h
              exact ⟨_, rfl, rfl, Or.inr ⟨hfive, (Option.some.inj h).symm⟩⟩
            · exact ⟨_, rfl, rfl, Or.inr ⟨hfive, (Option.some.inj h).symm⟩⟩

/-! ## The tiers -/

open scoped Classical in
/-- The loop over the hits: what it adds to the two tiers, in the order of the hits. -/
theorem foldlM_scanHit {hits : List (Symbol × Snapshot)}
    (hnet : ∀ hit ∈ hits, inWideNet hit.2 = true)
    {tiers tiers' : List WatchlistEntry × List WatchlistEntry}
    (h : hits.foldlM (scanHit upper feed) tiers = some tiers') :
    tiers'.1.map (·.symbol) = tiers.1.map (·.symbol)
        ++ (hits.filter fun hit => ¬ Skipped feed hit.1).map Prod.fst
      ∧ tiers'.2.map (·.symbol) = tiers.2.map (·.symbol)
        ++ (hits.filter fun hit => FivePillars upper feed hit).map Prod.fst := by
  induction hits generalizing tiers with
  | nil =>
      obtain rfl := Option.some.inj h
      simp
  | cons hit hits ih =>
      rw [List.foldlM_cons, Option.bind_eq_bind, Option.bind_eq_some_iff] at h
      obtain ⟨mid, hmid, hrest⟩ := h
      obtain ⟨ha, hb⟩ := ih (fun x hx => hnet x (List.mem_cons_of_mem _ hx)) hrest
      -- in neither, in both, or in tier A
      rcases scanHit_cases (hnet hit List.mem_cons_self) hmid with
        ⟨hskip, rfl⟩ | ⟨hskip, e, hsym, -, ⟨hfive, -, rfl⟩ | ⟨hfive, rfl⟩⟩
      · have hfive : ¬ FivePillars upper feed hit := fun hf => hf.not_skipped hskip
        simp [ha, hb, hskip, hfive]
      · simp [ha, hb, hskip, hfive, hsym]
      · simp [ha, hb, hskip, hfive, hsym]

/-- An entry of tier B is one of tier A. -/
theorem foldlM_scanHit_entry {hits : List (Symbol × Snapshot)}
    (hnet : ∀ hit ∈ hits, inWideNet hit.2 = true)
    {tiers tiers' : List WatchlistEntry × List WatchlistEntry}
    (h : hits.foldlM (scanHit upper feed) tiers = some tiers')
    (hall : ∀ e ∈ tiers.2, e.tier = .b ∧ { e with tier := .a, pillar5Status := none } ∈ tiers.1) :
    ∀ e ∈ tiers'.2, e.tier = .b ∧ { e with tier := .a, pillar5Status := none } ∈ tiers'.1 := by
  induction hits generalizing tiers with
  | nil => exact Option.some.inj h ▸ hall
  | cons hit hits ih =>
      rw [List.foldlM_cons, Option.bind_eq_bind, Option.bind_eq_some_iff] at h
      obtain ⟨mid, hmid, hrest⟩ := h
      refine ih (fun x hx => hnet x (List.mem_cons_of_mem _ hx)) hrest ?_
      rcases scanHit_cases (hnet hit List.mem_cons_self) hmid with
        ⟨-, rfl⟩ | ⟨-, e, -, htier, ⟨-, hstatus, rfl⟩ | ⟨-, rfl⟩⟩
      · exact hall
      · -- what tier B had, and the entry that is new
        intro e' he'
        rcases List.mem_append.mp he' with he' | he'
        · exact ⟨(hall e' he').1, List.mem_append_left _ (hall e' he').2⟩
        · rw [List.mem_singleton.mp he', ← htier, ← hstatus]
          exact ⟨rfl, List.mem_append_right _ (List.mem_singleton.mpr rfl)⟩
      · exact fun e' he' => ⟨(hall e' he').1, List.mem_append_left _ (hall e' he').2⟩

theorem mem_aHits {hit : Symbol × Snapshot} : hit ∈ aHits feed batch ↔
    (snapshots feed batch).get? hit.1 = some hit.2 ∧ inWideNet hit.2 = true := by
  rw [aHits, mem_ranked, List.mem_filter, Dict.mem_items]

/-- Tier B is what of the snapshots passes the five pillars. -/
theorem mem_tierB_iff {a b : List WatchlistEntry} (h : runScan upper batch feed = some (a, b))
    (s : Symbol) : s ∈ b.map (·.symbol) ↔
      ∃ snap, (snapshots feed batch).get? s = some snap ∧ FivePillars upper feed (s, snap) := by
  classical
  have hnet : ∀ hit ∈ aHits feed batch, inWideNet hit.2 = true := fun hit hh => (mem_aHits.mp hh).2
  rw [(foldlM_scanHit hnet h).2, List.map_nil, List.nil_append, List.mem_map]
  constructor
  · rintro ⟨hit, hh, rfl⟩
    obtain ⟨hmem, hfive⟩ := List.mem_filter.mp hh
    exact ⟨hit.2, (mem_aHits.mp hmem).1, of_decide_eq_true hfive⟩
  · rintro ⟨snap, hs, hfive⟩
    exact ⟨(s, snap), List.mem_filter.mpr ⟨mem_aHits.mpr ⟨hs, hfive.inWideNet⟩,
      decide_eq_true hfive⟩, rfl⟩

open scoped Classical in
/-- **What a scan finds.** Tier A is the wide net, ranked by the day's change, without what the
verifier says to skip; tier B is what of it passes the five pillars, in the same order, and every
symbol with a snapshot that passes them is in it. -/
theorem runScan_tiers {a b : List WatchlistEntry} (h : runScan upper batch feed = some (a, b)) :
    a.map (·.symbol)
        = ((aHits feed batch).filter fun hit => ¬ Skipped feed hit.1).map Prod.fst
      ∧ b.map (·.symbol)
        = ((aHits feed batch).filter fun hit => FivePillars upper feed hit).map Prod.fst
      ∧ (∀ s, s ∈ b.map (·.symbol) ↔
        ∃ snap, (snapshots feed batch).get? s = some snap ∧ FivePillars upper feed (s, snap))
      ∧ ∀ e ∈ b, e.tier = .b ∧ { e with tier := .a, pillar5Status := none } ∈ a := by
  have hnet : ∀ hit ∈ aHits feed batch, inWideNet hit.2 = true := fun hit hh => (mem_aHits.mp hh).2
  obtain ⟨ha, hb⟩ := foldlM_scanHit hnet h
  exact ⟨ha, hb, mem_tierB_iff h, foldlM_scanHit_entry hnet h (by simp)⟩

/-- One low-float symbol is up a fifth; there is no verifier. -/
def oneMover : Feed where
  snapshot := fun ks => if "CETX" ∈ ks then (∅ : Dict _ _).set "CETX" ⟨some 5, 20, 900000⟩ else ∅
  rvol := fun _ _ => some (some 8)
  verify := none

/-- Its entry in tier B. -/
def oneMoverEntry : WatchlistEntry where
  symbol := "CETX"
  tier := .b
  price := 5
  rvol := some 8
  floatShares := some 4500000
  catalyst := "DEMO_BYPASS (no licensed news feed)"
  pillarFlags := ⟨true, true, true, true, true⟩
  changePct := 20
  catalystType := none
  pillar5Status := some .verified

theorem runScan_oneMover : runScan id 50 oneMover
    = some ([{ oneMoverEntry with tier := .a, pillar5Status := none }], [oneMoverEntry]) := by
  decide +kernel

/-- It is found by the scan, so it passes the pillars. -/
theorem runScan_tiers_oneMover :
    ∃ snap, (snapshots oneMover 50).get? "CETX" = some snap ∧ FivePillars id oneMover ("CETX", snap) :=
  ((runScan_tiers runScan_oneMover).2.2.1 "CETX").mp (by simp [oneMoverEntry])

/-- **Batches do not matter.** When the market says of a chunk what it says of each symbol, tier B is
what of the universe passes the five pillars, whatever the size of the chunks. -/
theorem mem_tierB_universe {g : Symbol → Option Snapshot}
    (hfeed : ∀ ks k, (feed.snapshot ks).get? k = if k ∈ ks then g k else none)
    {a b : List WatchlistEntry} (h : runScan upper batch feed = some (a, b)) (s : Symbol) :
    s ∈ b.map (·.symbol) ↔
      s ∈ starterUniverse ∧ ∃ snap, g s = some snap ∧ FivePillars upper feed (s, snap) := by
  have hbatch : 0 < (max 1 batch).toNat := by omega
  rw [mem_tierB_iff h s, snapshots, get?_gather hfeed hbatch]
  by_cases hs : s ∈ starterUniverse
  · simp [hs]
  · simp [hs]

theorem mem_tierB_universe_oneMover : "CETX" ∈ [oneMoverEntry].map (·.symbol) ↔
    "CETX" ∈ starterUniverse ∧ ∃ snap, (if "CETX" = "CETX" then some ⟨some 5, 20, 900000⟩ else none)
      = some snap ∧ FivePillars id oneMover ("CETX", snap) := by
  refine mem_tierB_universe (g := fun k => if k = "CETX" then some ⟨some 5, 20, 900000⟩ else none)
    ?_ runScan_oneMover "CETX"
  intro ks k
  by_cases hc : "CETX" ∈ ks
  · by_cases hk : k = "CETX"
    · simp [oneMover, hc, hk]
    · simp [oneMover, hc, hk, Dict.get?_set]
  · by_cases hk : k = "CETX"
    · simp [oneMover, hc, hk]
    · simp [oneMover, hc, hk]

end DemoScan

end RossBot

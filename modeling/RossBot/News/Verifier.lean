import RossBot.News.Stream

/-!
# The verifier's hard block

`core/news/catalyst_verifier.py`. The verdict is the strongest of what the articles
in the bucket and within the lookback are classified as (`verify_rank`), so it is
the one due to all arrivals as long as the bucket lost no article that outranks
what it kept (`verdict_iff`).
-/

namespace RossBot

open Lib

/-- SKIP over VERIFIED over UNVERIFIED. -/
def CatalystStatus.rank : CatalystStatus → ℕ
  | .unverified => 0
  | .verified => 1
  | .skip => 2

theorem CatalystStatus.rank_inj {c c' : CatalystStatus} : c.rank = c'.rank ↔ c = c' := by
  cases c <;> cases c' <;> decide

theorem CatalystStatus.rank_le_two (c : CatalystStatus) : c.rank ≤ 2 := by
  cases c <;> decide

/-- `CatalystVerifier`; `classify` is its classifier's. -/
structure CatalystVerifier where
  classify : (symbol headline summary source : String) → CatalystResult
  lookbackMinutes : ℤ := 60

/-- One turn of the loop of `verify`: the first SKIP and the first VERIFIED are kept. -/
def keepFirst (found : Option CatalystResult × Option CatalystResult) (r : CatalystResult) :
    Option CatalystResult × Option CatalystResult :=
  if r.status = .skip ∧ found.1 = none then (some r, found.2)
  else if r.status = .verified ∧ found.2 = none then (found.1, some r)
  else found

namespace CatalystVerifier

/-- A verifier with the keyword classifier and `_DEFAULT_LOOKBACK`. -/
def default (lower : String → String) : CatalystVerifier := { classify := keywordClassify lower }

/-- What the classifier makes of an article. -/
def reads (v : CatalystVerifier) (symbol : Symbol) (item : NewsItem) : CatalystResult :=
  v.classify symbol item.headline item.summary item.source

/-- `verify`. -/
def verify {cacheSize : ℕ} (v : CatalystVerifier) (upper : String → String) (now : Time)
    (stream : NewsStreamAdapter cacheSize) (symbol : Symbol) : CatalystResult :=
  let items := stream.getRecentNews upper now symbol v.lookbackMinutes
  if items = [] then ⟨.unverified, "none", "no_recent_news"⟩
  else
    match (items.map (v.reads symbol)).foldl keepFirst (none, none) with
    | (some skip, _) => skip
    | (none, some verified) => verified
    | (none, none) => ⟨.unverified, "none", "no_recognized_catalyst"⟩

end CatalystVerifier

/-! ## The loop -/

theorem foldl_keepFirst (rs : List CatalystResult)
    (found : Option CatalystResult × Option CatalystResult) :
    rs.foldl keepFirst found
      = (found.1.or (rs.find? fun r => r.status = .skip),
          found.2.or (rs.find? fun r => r.status = .verified)) := by
  induction rs generalizing found with
  | nil => simp
  | cons r rs ih =>
      obtain ⟨skip, verified⟩ := found
      rw [List.foldl_cons, ih, keepFirst]
      cases hr : r.status <;> cases skip <;> cases verified <;> simp [hr]

namespace CatalystVerifier

variable {cacheSize : ℕ} {v : CatalystVerifier} {upper : String → String} {now : Time}
  {stream : NewsStreamAdapter cacheSize} {symbol : Symbol}

/-- What `verify` makes of the classifications of the recent articles. -/
theorem verify_status (v : CatalystVerifier) (upper : String → String) (now : Time)
    (stream : NewsStreamAdapter cacheSize) (symbol : Symbol) :
    let items := stream.getRecentNews upper now symbol v.lookbackMinutes
    ((v.verify upper now stream symbol).status = .skip
        ↔ ∃ item ∈ items, (v.reads symbol item).status = .skip)
      ∧ ((v.verify upper now stream symbol).status = .verified
        ↔ (¬ ∃ item ∈ items, (v.reads symbol item).status = .skip)
          ∧ ∃ item ∈ items, (v.reads symbol item).status = .verified) := by
  intro items
  rw [verify, foldl_keepFirst]
  dsimp only
  change (CatalystResult.status (if items = [] then _ else _) = _ ↔ _)
    ∧ (CatalystResult.status (if items = [] then _ else _) = _ ↔ _)
  by_cases hnil : items = []
  · simp [hnil]
  rw [if_neg hnil, Option.none_or, Option.none_or]
  -- a skip outranks whatever else was read
  cases hskip : (items.map (v.reads symbol)).find? fun r => decide (r.status = .skip) with
  | some r =>
      have hr : r.status = .skip := by simpa using List.find?_some hskip
      obtain ⟨item, hmem, hreads⟩ := List.mem_map.mp (List.mem_of_find?_eq_some hskip)
      have hex : ∃ item ∈ items, (v.reads symbol item).status = .skip := ⟨item, hmem, hreads ▸ hr⟩
      simp [hr, hex]
  | none =>
      have hno : ¬ ∃ item ∈ items, (v.reads symbol item).status = .skip := by
        rintro ⟨item, hmem, hs⟩
        exact absurd hs (by simpa using List.find?_eq_none.mp hskip _ (List.mem_map_of_mem hmem))
      -- nothing says skip, so the first verified article decides
      cases hver : (items.map (v.reads symbol)).find? fun r => decide (r.status = .verified) with
      | some r =>
          have hr : r.status = .verified := by simpa using List.find?_some hver
          obtain ⟨item, hmem, hreads⟩ := List.mem_map.mp (List.mem_of_find?_eq_some hver)
          have hex : ∃ item ∈ items, (v.reads symbol item).status = .verified :=
            ⟨item, hmem, hreads ▸ hr⟩
          simp [hr, hno, hex]
      | none =>
          have hnov : ¬ ∃ item ∈ items, (v.reads symbol item).status = .verified := by
            rintro ⟨item, hmem, hs⟩
            exact absurd hs (by simpa using List.find?_eq_none.mp hver _ (List.mem_map_of_mem hmem))
          simp [hno, hnov]

/-- What an article counts for: its classification, and nothing out of the lookback. -/
def weight (v : CatalystVerifier) (now : Time) (symbol : Symbol) (item : NewsItem) : ℕ :=
  if now - v.lookbackMinutes * 60 ≤ item.createdAt then (v.reads symbol item).status.rank else 0

theorem weight_eq_iff {item : NewsItem} {c : CatalystStatus} (hc : c ≠ .unverified) :
    v.weight now symbol item = c.rank
      ↔ now - v.lookbackMinutes * 60 ≤ item.createdAt ∧ (v.reads symbol item).status = c := by
  unfold weight
  split
  · rename_i hin
    cases c <;> cases (v.reads symbol item).status <;> simp_all [CatalystStatus.rank]
  · rename_i hout
    cases c <;> simp_all [CatalystStatus.rank]

theorem mem_getRecentNews {item : NewsItem} :
    item ∈ stream.getRecentNews upper now symbol v.lookbackMinutes
      ↔ item ∈ (stream.bucket (upper symbol)).items
        ∧ now - v.lookbackMinutes * 60 ≤ item.createdAt := by
  rw [NewsStreamAdapter.getRecentNews, List.mem_filter, decide_eq_true_eq]

/-- **The verdict is the strongest reading of the bucket.** -/
theorem verify_rank :
    (v.verify upper now stream symbol).status.rank
      = strongest (v.weight now symbol) (stream.bucket (upper symbol)).items := by
  obtain ⟨hskip, hver⟩ := verify_status v upper now stream symbol
  apply le_antisymm
  · -- the verdict is some article's
    rw [le_strongest_iff]
    cases hc : (v.verify upper now stream symbol).status with
    | unverified => exact Or.inl rfl
    | skip =>
        obtain ⟨item, hmem, hs⟩ := hskip.mp hc
        obtain ⟨hmem, hin⟩ := mem_getRecentNews.mp hmem
        exact Or.inr ⟨item, hmem, ((weight_eq_iff (by simp)).mpr ⟨hin, hs⟩).ge⟩
    | verified =>
        obtain ⟨item, hmem, hs⟩ := (hver.mp hc).2
        obtain ⟨hmem, hin⟩ := mem_getRecentNews.mp hmem
        exact Or.inr ⟨item, hmem, ((weight_eq_iff (by simp)).mpr ⟨hin, hs⟩).ge⟩
  · -- no article says more than the verdict
    refine strongest_le_iff.mpr fun item hmem => ?_
    unfold weight
    split
    · rename_i hin
      have hrecent := mem_getRecentNews.mpr ⟨hmem, hin⟩
      cases hs : (v.reads symbol item).status with
      | unverified => exact Nat.zero_le _
      | skip => rw [hskip.mpr ⟨item, hrecent, hs⟩]
      | verified =>
          by_cases hex : (v.verify upper now stream symbol).status = .skip
          · rw [hex]; decide
          · rw [hver.mpr ⟨fun h => hex (hskip.mpr h), item, hrecent, hs⟩]
    · exact Nat.zero_le _

/-- The status `verify` returns after the arrivals. -/
def verdict (v : CatalystVerifier) (upper : String → String) (cacheSize : ℕ) (now : Time)
    (symbol : Symbol) (as : List Arrival) : CatalystStatus :=
  (v.verify upper now (NewsStreamAdapter.after upper cacheSize as) symbol).status

/-- An arrived article that names the symbol and is within the lookback. -/
structure Counts (v : CatalystVerifier) (upper : String → String) (now : Time) (symbol : Symbol)
    (as : List Arrival) (item : NewsItem) : Prop where
  arrived : ∃ a ∈ as, a.news.item upper = some item
  named : upper symbol ∈ item.topics
  recent : now - v.lookbackMinutes * 60 ≤ item.createdAt

/-- The verdict due: SKIP on any SKIP, otherwise VERIFIED on any VERIFIED and only then. -/
structure Due (v : CatalystVerifier) (upper : String → String) (now : Time) (symbol : Symbol)
    (as : List Arrival) (verdict : CatalystStatus) : Prop where
  skip : (∃ item, v.Counts upper now symbol as item ∧ (v.reads symbol item).status = .skip) →
    verdict = .skip
  verified : (¬ ∃ item, v.Counts upper now symbol as item ∧ (v.reads symbol item).status = .skip) →
    (verdict = .verified
      ↔ ∃ item, v.Counts upper now symbol as item ∧ (v.reads symbol item).status = .verified)

/-- The entries the arrivals made in the symbol's bucket, kept or not. -/
def entries (upper : String → String) (symbol : Symbol) (as : List Arrival) : List NewsItem :=
  as.flatMap (Arrival.entries upper (upper symbol))

variable {as : List Arrival} {c : CatalystStatus}

theorem mem_entries {item : NewsItem} :
    item ∈ entries upper symbol as
      ↔ (∃ a ∈ as, a.news.item upper = some item) ∧ upper symbol ∈ item.topics := by
  -- of one arrival: it is stored once for each time it names the symbol
  have hone : ∀ a : Arrival, item ∈ a.entries upper (upper symbol)
      ↔ a.news.item upper = some item ∧ upper symbol ∈ item.topics := by
    intro a
    rw [Arrival.entries]
    cases a.news.item upper with
    | none => simp
    | some i =>
        rw [Option.some.injEq, List.mem_replicate, Nat.ne_zero_iff_zero_lt, List.count_pos_iff]
        constructor
        · rintro ⟨hn, rfl⟩; exact ⟨rfl, hn⟩
        · rintro ⟨rfl, hn⟩; exact ⟨hn, rfl⟩
  rw [entries, List.mem_flatMap]
  constructor
  · rintro ⟨a, ha, hi⟩
    exact ⟨⟨a, ha, ((hone a).mp hi).1⟩, ((hone a).mp hi).2⟩
  · rintro ⟨⟨a, ha, hi⟩, hn⟩
    exact ⟨a, ha, (hone a).mpr ⟨hi, hn⟩⟩

/-- An article that counts is an entry with the weight of its classification. -/
theorem counts_iff (hc : c ≠ .unverified) :
    (∃ item, v.Counts upper now symbol as item ∧ (v.reads symbol item).status = c)
      ↔ ∃ item ∈ entries upper symbol as, v.weight now symbol item = c.rank := by
  constructor
  · rintro ⟨item, ⟨ha, hn, hin⟩, hs⟩
    exact ⟨item, mem_entries.mpr ⟨ha, hn⟩, (weight_eq_iff hc).mpr ⟨hin, hs⟩⟩
  · rintro ⟨item, hmem, hw⟩
    obtain ⟨ha, hn⟩ := mem_entries.mp hmem
    obtain ⟨hin, hs⟩ := (weight_eq_iff hc).mp hw
    exact ⟨item, ⟨ha, hn, hin⟩, hs⟩

theorem weight_le_two (item : NewsItem) : v.weight now symbol item ≤ 2 := by
  unfold weight
  split
  · exact CatalystStatus.rank_le_two _
  · exact Nat.zero_le _

/--
**The verdict due is the strongest reading of all entries**, kept or not.

A skip outranks a verification, and that outranks the rest. So with a verdict no
stronger than the strongest reading, what is due is that it is as strong.
-/
theorem due_iff (hc : c.rank ≤ strongest (v.weight now symbol) (entries upper symbol as)) :
    v.Due upper now symbol as c
      ↔ c.rank = strongest (v.weight now symbol) (entries upper symbol as) := by
  have htop : strongest (v.weight now symbol) (entries upper symbol as) ≤ 2 :=
    strongest_le_iff.mpr fun item _ => weight_le_two item
  have hskip : (∃ item, v.Counts upper now symbol as item ∧ (v.reads symbol item).status = .skip)
      ↔ 2 ≤ strongest (v.weight now symbol) (entries upper symbol as) := by
    rw [counts_iff (by simp), le_strongest_iff]
    constructor
    · rintro ⟨item, hmem, hw⟩
      exact Or.inr ⟨item, hmem, hw.ge⟩
    · rintro (h | ⟨item, hmem, hw⟩)
      · exact absurd h (by decide)
      · exact ⟨item, hmem, le_antisymm (weight_le_two item) hw⟩
  have hver : ¬ 2 ≤ strongest (v.weight now symbol) (entries upper symbol as) →
      ((∃ item, v.Counts upper now symbol as item ∧ (v.reads symbol item).status = .verified)
        ↔ 1 ≤ strongest (v.weight now symbol) (entries upper symbol as)) := by
    intro hno
    rw [counts_iff (by simp), le_strongest_iff]
    constructor
    · rintro ⟨item, hmem, hw⟩
      exact Or.inr ⟨item, hmem, hw.ge⟩
    · rintro (h | ⟨item, hmem, hw⟩)
      · exact absurd h (by decide)
      · have hle : v.weight now symbol item
            ≤ strongest (v.weight now symbol) (entries upper symbol as) := le_strongest hmem
        exact ⟨item, hmem, show v.weight now symbol item = 1 by omega⟩
  -- rank by rank: skip, then verified, then neither
  constructor
  · rintro ⟨hs, hv⟩
    rw [hskip] at hs hv
    by_cases h2 : 2 ≤ strongest (v.weight now symbol) (entries upper symbol as)
    · rw [hs h2]
      exact le_antisymm h2 htop
    · have hv := hv h2
      rw [hver h2] at hv
      cases c <;> simp [CatalystStatus.rank] at hv hc ⊢ <;> omega
  · intro h
    refine ⟨fun hs => ?_, fun hno => ?_⟩
    · rw [hskip] at hs
      cases c <;> simp [CatalystStatus.rank] at h ⊢ <;> omega
    · rw [hskip] at hno
      rw [hver hno]
      cases c <;> simp [CatalystStatus.rank] at h ⊢ <;> omega

variable {cacheSize : ℕ}

theorem verdict_rank :
    (v.verdict upper cacheSize now symbol as).rank
      = strongest (v.weight now symbol) (latest cacheSize (entries upper symbol as)) := by
  rw [verdict, verify_rank, NewsStreamAdapter.items_bucket_after, entries]

theorem due_verdict_iff :
    v.Due upper now symbol as (v.verdict upper cacheSize now symbol as)
      ↔ strongest (v.weight now symbol) (latest cacheSize (entries upper symbol as))
        = strongest (v.weight now symbol) (entries upper symbol as) := by
  rw [due_iff, verdict_rank]
  rw [verdict_rank]
  exact strongest_mono fun _ hx => mem_latest_or_older.mpr (Or.inl hx)

/-- No entry that was pushed out outranks all that were kept. -/
def Keeps (v : CatalystVerifier) (upper : String → String) (cacheSize : ℕ) (now : Time)
    (symbol : Symbol) (as : List Arrival) : Prop :=
  ∀ item ∈ older cacheSize (entries upper symbol as), v.weight now symbol item = 0
    ∨ ∃ kept ∈ latest cacheSize (entries upper symbol as),
        v.weight now symbol item ≤ v.weight now symbol kept

/-- Nothing is SKIP or VERIFIED, or the entries that fall short of the strongest do not fill
the bucket. -/
def Roomy (v : CatalystVerifier) (upper : String → String) (cacheSize : ℕ) (now : Time)
    (symbol : Symbol) (as : List Arrival) : Prop :=
  (∀ item ∈ entries upper symbol as, v.weight now symbol item = 0)
    ∨ weaker (v.weight now symbol) (entries upper symbol as) < cacheSize

theorem due_iff_keeps :
    v.Due upper now symbol as (v.verdict upper cacheSize now symbol as)
      ↔ v.Keeps upper cacheSize now symbol as := by
  rw [due_verdict_iff, strongest_latest_iff]
  rfl

theorem every_order_iff_roomy :
    (∀ bs : List Arrival, bs.Perm as →
        v.Due upper now symbol bs (v.verdict upper cacheSize now symbol bs))
      ↔ v.Roomy upper cacheSize now symbol as := by
  have hone : ∀ a : Arrival, ∀ x ∈ a.entries upper (upper symbol),
      ∀ y ∈ a.entries upper (upper symbol), v.weight now symbol x = v.weight now symbol y := by
    intro a x hx y hy
    rw [Arrival.entries] at hx hy
    cases hitem : a.news.item upper with
    | none => rw [hitem] at hx; exact absurd hx List.not_mem_nil
    | some item =>
        rw [hitem] at hx hy
        rw [List.eq_of_mem_replicate hx, List.eq_of_mem_replicate hy]
  have hzero : strongest (v.weight now symbol) (entries upper symbol as) = 0
      ↔ ∀ item ∈ entries upper symbol as, v.weight now symbol item = 0 := by
    rw [← Nat.le_zero, strongest_le_iff]
    simp only [Nat.le_zero]
  rw [Roomy, ← hzero, entries, ← Nat.bot_eq_zero, ← latest_every_order_iff hone]
  simp only [due_verdict_iff, entries]

end CatalystVerifier

open CatalystVerifier

/-- **When the hard block holds.** After these arrivals the verdict is the one due exactly if the
bucket lost no entry that outranks what it kept; and it is the one due, and the same, in every
order of these arrivals exactly if the entries that fall short of the strongest leave room in the
bucket. -/
theorem verdict_iff (v : CatalystVerifier) (upper : String → String) (cacheSize : ℕ) (now : Time)
    (symbol : Symbol) (as : List Arrival) :
    (v.Due upper now symbol as (v.verdict upper cacheSize now symbol as)
        ↔ v.Keeps upper cacheSize now symbol as)
      ∧ ((∀ bs : List Arrival, bs.Perm as →
            v.Due upper now symbol bs (v.verdict upper cacheSize now symbol bs)
              ∧ v.verdict upper cacheSize now symbol bs = v.verdict upper cacheSize now symbol as)
          ↔ v.Roomy upper cacheSize now symbol as) := by
  refine ⟨due_iff_keeps, ?_⟩
  rw [← every_order_iff_roomy]
  refine ⟨fun h bs hbs => (h bs hbs).1, fun h bs hbs => ⟨h bs hbs, ?_⟩⟩
  have hall : strongest (v.weight now symbol) (entries upper symbol bs)
      = strongest (v.weight now symbol) (entries upper symbol as) :=
    strongest_perm (hbs.flatMap_right _)
  rw [← CatalystStatus.rank_inj, verdict_rank, verdict_rank, due_verdict_iff.mp (h bs hbs),
    due_verdict_iff.mp (h as (List.Perm.refl as)), hall]

/-- `str.upper` on ASCII text. -/
def asciiUpper (s : String) : String := .ofList (s.toList.map Char.toUpper)

/-- `str.lower` on ASCII text. -/
def asciiLower (s : String) : String := .ofList (s.toList.map Char.toLower)

/-- An article about TEST at the opening bell. -/
def testNews (headline : String) : RawNews where
  id := some 1
  headline := some headline
  summary := none
  source := some "benzinga"
  symbols := some ["TEST"]
  createdAt := some ⟨openingBell, none⟩

/-- That article in the cache. -/
def testItem (headline : String) : NewsItem where
  id := 1
  headline := headline
  summary := ""
  source := "benzinga"
  symbols := ["TEST"]
  createdAt := openingBell

/-- A buyout, and ten articles about an approval. -/
def buyoutThenApproval : List Arrival :=
  .live (testNews "Buyout") :: List.replicate 10 (.live (testNews "FDA nod"))

/-- The tenth article about the approval pushes the buyout out of the bucket. -/
theorem buyout_pushed_out :
    ¬ (CatalystVerifier.default asciiLower).Due asciiUpper (openingBell + 60) "TEST"
      buyoutThenApproval ((CatalystVerifier.default asciiLower).verdict asciiUpper 10
        (openingBell + 60) "TEST" buyoutThenApproval) := by
  have hentries : entries asciiUpper "TEST" buyoutThenApproval
      = testItem "Buyout" :: List.replicate 10 (testItem "FDA nod") := rfl
  have hbuyout : (CatalystVerifier.default asciiLower).weight (openingBell + 60) "TEST"
      (testItem "Buyout") = 2 := by decide +kernel
  have happroval : (CatalystVerifier.default asciiLower).weight (openingBell + 60) "TEST"
      (testItem "FDA nod") = 1 := by decide +kernel
  rw [due_iff_keeps, Keeps, hentries]
  intro h
  rcases h (testItem "Buyout") List.mem_cons_self with h0 | ⟨kept, hkept, hle⟩
  · exact absurd (hbuyout.symm.trans h0) (by decide)
  · have hkept : kept = testItem "FDA nod" := List.eq_of_mem_replicate (n := 10) hkept
    rw [hkept, hbuyout, happroval] at hle
    exact absurd hle (by decide)

end RossBot

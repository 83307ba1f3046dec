import RossBot.Demo.Exits
import RossBot.Demo.Refs

/-!
# Every share is accounted for

A position opened with `N` shares should be in the journal and in `positions` with
`N` shares together, whatever order its exits come in. An entry keeps this for
every object at once or breaks it for one (`keepsAccount_iff`); so the runs in
which the account is kept are those made of steps that keep it
(`conserved_iff`). `flatten_all` is not among them.

A row has its prices printed to cents, and `record_close` is given the P&L before
that; the rows make up the realized P&L as long as no price difference is lost in
printing (`amount_row_iff`).
-/

namespace RossBot

open Lib

/-! ## What is claimed -/

/-- A step in which the broker answers, if it does, by accepting. -/
def DeskLabel.accepted : DeskLabel → Bool
  | .ack a | .taskAck _ a => a.accepted
  | _ => true

/-- One step, with a broker that accepts every order. -/
def Desk.acceptedStep (env : DemoEnv) (s : Desk) (l : DeskLabel) : Option Desk :=
  if l.accepted then s.step env l else none

/-- Any interleaving, with a broker that accepts every order. -/
abbrev AcceptedRun (env : DemoEnv) := Execution (Desk.acceptedStep env) (Desk.init env)

/-- The calls of `_record_journal` in a run. -/
def journalCalls (env : DemoEnv) (ms : List (Move Desk DeskLabel)) : List JournalCall :=
  ms.flatMap fun m => m.pre.journals (m.pre.posting env m.label)

/-- The shares of an object that were journaled. -/
def calledShares (ref : ℕ) (calls : List JournalCall) : ℤ :=
  ((calls.filter fun c => c.ref = some ref).map JournalCall.shares).sum

/-- The shares of an object that are still tracked. -/
def Desk.trackedShares (s : Desk) (ref : ℕ) : ℤ :=
  if ref ∈ s.positions.items.map Prod.snd then (s.objects ref).shares else 0

/-- `(exit_price - entry_price) * shares`, of what a row says. -/
def JournalRow.amount (r : JournalRow) : ℚ := (r.exitPrice - r.entryPrice) * (r.shares : ℚ)

/-- **The ledger is conserved**: each position opened is journaled in positive parts that make up,
with what is still tracked, what it was opened with, and the realized P&L is what the rows come
to. -/
structure Conserved (calls : List JournalCall) (s : Desk) : Prop where
  rows : s.closedTrades = calls.map JournalCall.row
  positive : ∀ ref pos, .opened ref pos ∈ s.log → ∀ c ∈ calls, c.ref = some ref → 0 < c.shares
  shares : ∀ ref pos, .opened ref pos ∈ s.log →
    calledShares ref calls + s.trackedShares ref = pos.shares
  realized : s.risk.realizedPnl = (s.closedTrades.map JournalRow.amount).sum

/-! ## The steps that keep it -/

/-- No share is forgotten, or sold twice: an accepted BUY is of a symbol that is not tracked with
shares, an exit that is answered finds its position tracked (a full exit with a share left at
least), and `positions` is cleared only of positions without shares. -/
def Desk.KeepsAccount (s : Desk) : Posting → Prop
  | .opens pos => ∀ ref, s.positions.get? pos.symbol = some ref → (s.objects ref).shares = 0
  | .scales exit _ => s.positions.get? exit.symbol = some exit.ref
  | .closes exit _ =>
      s.positions.get? exit.symbol = some exit.ref ∧ 0 < (s.objects exit.ref).shares
  | .clears => ∀ symbol ref, s.positions.get? symbol = some ref → (s.objects ref).shares = 0
  | _ => True

/-- In cents, the prices of a call differ by as much as they do; of no shares they may differ. -/
def JournalCall.InCents (c : JournalCall) : Prop :=
  c.shares = 0
    ∨ quantize2 c.exitPrice - quantize2 c.pos.entryPrice = c.exitPrice - c.pos.entryPrice

/-- Prices of whole cents are printed as they are. -/
theorem JournalCall.inCents_of_onCents {c : JournalCall} (hexit : OnCents c.exitPrice)
    (hentry : OnCents c.pos.entryPrice) : c.InCents :=
  Or.inr (by rw [hexit.quantize2_eq, hentry.quantize2_eq])

/-- A row says what was recorded exactly when nothing is lost in printing it. -/
theorem JournalCall.amount_row_iff {c : JournalCall} : c.row.amount = c.realized ↔ c.InCents := by
  have hrow : c.row.amount
      = (quantize2 c.exitPrice - quantize2 c.pos.entryPrice) * (c.shares : ℚ) := rfl
  rw [hrow, realized, mul_eq_mul_right_iff, Int.cast_eq_zero, InCents, or_comm]

section Shares

variable {env : DemoEnv} {s s' : Desk} {ref : ℕ} {calls : List JournalCall}

theorem calledShares_append (ref : ℕ) (calls calls' : List JournalCall) :
    calledShares ref (calls ++ calls') = calledShares ref calls + calledShares ref calls' := by
  rw [calledShares, List.filter_append, List.map_append, List.sum_append]; rfl

@[simp] theorem calledShares_singleton (ref : ℕ) (c : JournalCall) :
    calledShares ref [c] = if c.ref = some ref then c.shares else 0 := by
  by_cases h : c.ref = some ref <;> simp [calledShares, h]

namespace Desk

theorem mem_tracked : ref ∈ s.positions.items.map Prod.snd
    ↔ ∃ symbol, s.positions.get? symbol = some ref := by
  constructor
  · intro h
    obtain ⟨⟨symbol, r⟩, hb, rfl⟩ := List.mem_map.mp h
    exact ⟨symbol, Dict.mem_items.mp hb⟩
  · rintro ⟨symbol, h⟩
    exact List.mem_map.mpr ⟨(symbol, ref), Dict.mem_items.mpr h, rfl⟩

theorem trackedShares_of_get {symbol : Symbol} (h : s.positions.get? symbol = some ref) :
    s.trackedShares ref = (s.objects ref).shares := if_pos (mem_tracked.mpr ⟨symbol, h⟩)

theorem trackedShares_of_none (h : ∀ symbol, s.positions.get? symbol ≠ some ref) :
    s.trackedShares ref = 0 := by
  refine if_neg fun hmem => ?_
  obtain ⟨symbol, hget⟩ := mem_tracked.mp hmem
  exact h symbol hget

theorem trackedShares_congr
    (hp : ∀ symbol, s'.positions.get? symbol = some ref ↔ s.positions.get? symbol = some ref)
    (ho : (s'.objects ref).shares = (s.objects ref).shares) :
    s'.trackedShares ref = s.trackedShares ref := by
  by_cases ht : ∃ symbol, s.positions.get? symbol = some ref
  · obtain ⟨symbol, hget⟩ := ht
    rw [trackedShares_of_get hget, trackedShares_of_get ((hp symbol).mpr hget), ho]
  · have hnone : ∀ symbol, s.positions.get? symbol ≠ some ref := fun symbol hget =>
      ht ⟨symbol, hget⟩
    rw [trackedShares_of_none hnone,
      trackedShares_of_none fun symbol hget => hnone symbol ((hp symbol).mp hget)]

/-! ## What an entry does to an object's shares -/

variable (s) in
/-- An entry moves an object's shares to the journal, and neither loses nor makes any. -/
structure Balances (p : Posting) : Prop where
  shares : ∀ ref < s.nextRef,
    calledShares ref (s.journals p) + (s.post p).trackedShares ref = s.trackedShares ref
  positive : ∀ c ∈ s.journals p, ∀ ref, c.ref = some ref → 0 < c.shares

/-- A BUY leaves nothing of what its symbol was tracked as before. -/
theorem trackedShares_opens (h : s.Known) (pos : DemoPosition) (hlt : ref < s.nextRef) :
    (s.post (.opens pos)).trackedShares ref
      = if s.positions.get? pos.symbol = some ref then 0 else s.trackedShares ref := by
  have hget : ∀ symbol, (s.post (.opens pos)).positions.get? symbol
      = if symbol = pos.symbol then some s.nextRef else s.positions.get? symbol :=
    fun symbol => Dict.get?_set ..
  split
  · -- the earlier position of the symbol is overwritten
    rename_i hold
    refine trackedShares_of_none fun symbol hs => ?_
    rw [hget] at hs
    split at hs
    · exact absurd (Option.some.inj hs) (Nat.ne_of_gt hlt)
    · rename_i hsym
      exact hsym ((h.positions symbol ref hs).2.symm.trans (h.positions _ ref hold).2)
  · -- any other keeps its symbol
    rename_i hold
    refine trackedShares_congr (fun symbol => ?_) ?_
    · rw [hget]
      split
      · rename_i hsym
        rw [hsym]
        exact ⟨fun hs => absurd (Option.some.inj hs) (Nat.ne_of_gt hlt), fun hs => absurd hs hold⟩
      · exact Iff.rfl
    · change (Function.update s.objects s.nextRef pos ref).shares = _
      rw [Function.update_of_ne (Nat.ne_of_lt hlt)]

/-- The new position is tracked with what it was opened with. -/
theorem trackedShares_opened (pos : DemoPosition) :
    (s.post (.opens pos)).trackedShares s.nextRef = pos.shares := by
  have hget : (s.post (.opens pos)).positions.get? pos.symbol = some s.nextRef :=
    Dict.get?_set_self ..
  rw [trackedShares_of_get hget]
  exact congrArg DemoPosition.shares (Function.update_self ..)

/-- A scale-out takes its shares from the object, tracked or not. -/
theorem trackedShares_scales (exit : PendingExit) (half : ℤ) (ref : ℕ) :
    (s.post (.scales exit half)).trackedShares ref
      = s.trackedShares ref
        - if ref = exit.ref ∧ ref ∈ s.positions.items.map Prod.snd then half else 0 := by
  have hshares := shares_bookScaleOut (s := s) exit half ref
  have hpos : (s.bookScaleOut exit half).positions = s.positions := rfl
  rw [post, trackedShares, trackedShares, hshares, hpos]
  by_cases hmem : ref ∈ s.positions.items.map Prod.snd
  · by_cases href : ref = exit.ref
    · rw [if_pos hmem, if_pos href, if_pos hmem, if_pos ⟨href, hmem⟩, href]
    · rw [if_pos hmem, if_neg href, if_pos hmem, if_neg fun hc => href hc.1, sub_zero]
  · rw [if_neg hmem, if_neg hmem, if_neg fun hc => hmem hc.2, sub_zero]

/-- A full exit leaves what is tracked under other symbols. -/
theorem trackedShares_closes (exit : PendingExit) (reason : DemoExit) (ref : ℕ) (h : s.Known) :
    (s.post (.closes exit reason)).trackedShares ref
      = if s.positions.get? exit.symbol = some ref then 0 else s.trackedShares ref := by
  have hget : ∀ symbol, (s.post (.closes exit reason)).positions.get? symbol
      = if symbol = exit.symbol then none else s.positions.get? symbol :=
    fun symbol => Dict.get?_erase ..
  split
  · -- the position that is closed
    rename_i hold
    refine trackedShares_of_none fun symbol hs => ?_
    rw [hget] at hs
    split at hs
    · exact absurd hs (by simp)
    · rename_i hsym
      exact hsym ((h.positions symbol ref hs).2.symm.trans (h.positions _ ref hold).2)
  · -- another one
    rename_i hold
    refine trackedShares_congr (fun symbol => ?_) rfl
    rw [hget]
    split
    · rename_i hsym
      rw [hsym]
      exact ⟨fun hs => absurd hs (by simp), fun hs => absurd hs hold⟩
    · exact Iff.rfl

/-- What an entry sells. -/
theorem calledShares_scales (exit : PendingExit) (half : ℤ) (ref : ℕ) :
    calledShares ref (s.journals (.scales exit half)) = if exit.ref = ref then half else 0 := by
  simp [journals]

theorem calledShares_closes (exit : PendingExit) (reason : DemoExit) (ref : ℕ) :
    calledShares ref (s.journals (.closes exit reason))
      = if exit.ref = ref then (s.objects exit.ref).shares else 0 := by
  simp [journals]

theorem calledShares_replays (pos : DemoPosition) (x : ℚ) (reason : DemoExit) (now : Time)
    (ref : ℕ) : calledShares ref (s.journals (.replays pos x reason now)) = 0 := by
  simp [journals]

/-! ## Keeping the account -/

/-- A BUY over nothing balances, and no other. -/
theorem keepsAccount_opens (h : s.Known) (pos : DemoPosition) :
    s.KeepsAccount (.opens pos) ↔ s.Balances (.opens pos) := by
  constructor
  · intro hk
    refine ⟨fun ref hlt => ?_, by simp [journals]⟩
    rw [trackedShares_opens h pos hlt]
    split
    · rename_i hold
      rw [trackedShares_of_get hold, hk ref hold]; rfl
    · exact zero_add _
  · intro hb ref hold
    have hsum := hb.shares ref (h.positions _ ref hold).1
    rw [trackedShares_opens h pos (h.positions _ ref hold).1, if_pos hold,
      trackedShares_of_get hold] at hsum
    exact hsum.symm

/-- A scale-out of what is tracked balances, and no other. -/
theorem keepsAccount_scales (h : s.Known) {exit : PendingExit} {half : ℤ}
    (hk : s.Knows exit.symbol exit.ref) (hone : 1 ≤ half) :
    s.KeepsAccount (.scales exit half) ↔ s.Balances (.scales exit half) := by
  constructor
  · intro htracked
    have hmem := mem_tracked.mpr ⟨_, (htracked : s.positions.get? exit.symbol = some exit.ref)⟩
    refine ⟨fun ref _ => ?_, ?_⟩
    · rw [calledShares_scales, trackedShares_scales]
      by_cases href : exit.ref = ref
      · rw [if_pos href, if_pos ⟨href.symm, href ▸ hmem⟩]; omega
      · rw [if_neg href, if_neg fun hc => href hc.1.symm]; omega
    · intro c hc ref _
      rw [List.mem_singleton.mp hc]
      exact hone
  · intro hb
    by_contra hn
    -- shares that nobody tracks are journaled
    have hnone := h.not_tracked hk hn
    have hsum := hb.shares exit.ref hk.1
    rw [calledShares_scales, trackedShares_scales, if_pos rfl, trackedShares_of_none hnone,
      if_neg fun hc => (mem_tracked.mp hc.2).elim hnone] at hsum
    omega

/-- A full exit of what is tracked balances, and no other. -/
theorem keepsAccount_closes (h : s.Known) {exit : PendingExit} {reason : DemoExit}
    (hk : s.Knows exit.symbol exit.ref) :
    s.KeepsAccount (.closes exit reason) ↔ s.Balances (.closes exit reason) := by
  constructor
  · -- a tracked position with a share left is journaled whole
    rintro ⟨htracked, hpos⟩
    refine ⟨fun ref _ => ?_, ?_⟩
    · rw [calledShares_closes, trackedShares_closes exit reason ref h, htracked]
      by_cases href : exit.ref = ref
      · rw [if_pos href, if_pos (congrArg some href), ← href, trackedShares_of_get htracked,
          add_zero]
      · rw [if_neg href, if_neg fun hc => href (Option.some.inj hc), zero_add]
    · intro c hc ref _
      rw [List.mem_singleton.mp hc]
      exact hpos
  · intro hb
    have hpos : 0 < (s.objects exit.ref).shares :=
      hb.positive _ (List.mem_singleton.mpr rfl) exit.ref rfl
    refine ⟨?_, hpos⟩
    -- one that is not tracked is journaled a second time
    by_contra hn
    have hsum := hb.shares exit.ref hk.1
    rw [calledShares_closes, trackedShares_closes exit reason exit.ref h, if_pos rfl, if_neg hn,
      trackedShares_of_none (h.not_tracked hk hn)] at hsum
    omega

/-- Clearing positions without shares balances, and no other. -/
theorem keepsAccount_clears (h : s.Known) : s.KeepsAccount .clears ↔ s.Balances .clears := by
  have hnone : ∀ ref, (s.post .clears).trackedShares ref = 0 := fun ref =>
    trackedShares_of_none fun symbol => by
      change (∅ : Dict Symbol ℕ).get? symbol ≠ some ref
      simp
  constructor
  · intro hk
    refine ⟨fun ref _ => ?_, by simp [journals]⟩
    rw [hnone]
    by_cases ht : ∃ symbol, s.positions.get? symbol = some ref
    · obtain ⟨symbol, hget⟩ := ht
      rw [trackedShares_of_get hget, hk symbol ref hget]; rfl
    · rw [trackedShares_of_none fun symbol hget =>
      ht ⟨symbol, hget⟩]; rfl
  · intro hb symbol ref hget
    have hsum := hb.shares ref (h.positions symbol ref hget).1
    rw [hnone, trackedShares_of_get hget] at hsum
    exact hsum.symm

/-- Moving a stop moves no shares. -/
theorem balances_restops (ref : ℕ) (stop : ℚ) : s.Balances (.restops ref stop) := by
  refine ⟨fun r _ => ?_, by simp [journals]⟩
  have hsame : (s.post (.restops ref stop)).trackedShares r = s.trackedShares r := by
    refine trackedShares_congr (fun symbol => Iff.rfl) ?_
    change (Function.update s.objects ref { s.objects ref with stopPrice := stop } r).shares = _
    rw [Function.update_apply]
    split
    · rename_i hr
      rw [hr]
    · rfl
  rw [hsame]
  exact zero_add _

/-- **An entry keeps the account exactly when it balances.** -/
theorem keepsAccount_iff (h : s.Known) (l : DeskLabel) :
    s.KeepsAccount (s.posting env l) ↔ s.Balances (s.posting env l) := by
  have hnothing : s.Balances .nothing := ⟨fun ref _ => zero_add _, by simp [journals]⟩
  cases hp : s.posting env l with
  | nothing => exact iff_of_true trivial hnothing
  | opens pos => exact keepsAccount_opens h pos
  | scales exit half => exact keepsAccount_scales h (h.scales hp).1 (h.scales hp).2
  | closes exit reason => exact keepsAccount_closes h (h.closes hp)
  | replays pos x reason now =>
      refine iff_of_true trivial ⟨fun ref _ => ?_, by simp [journals]⟩
      rw [calledShares_replays]
      exact zero_add _
  | clears => exact keepsAccount_clears h
  | restops ref stop => exact iff_of_true trivial (balances_restops ref stop)

end Desk

/-! ## The account -/

/-- **What holds while every entry balances**, as far as `calls` are what was journaled. -/
structure Account (calls : List JournalCall) (s : Desk) : Prop where
  known : s.Known
  opened : ∀ ref, (∃ pos, .opened ref pos ∈ s.log) ↔ ref < s.nextRef
  called : ∀ c ∈ calls, ∀ ref, c.ref = some ref → ref < s.nextRef
  rows : s.closedTrades = calls.map JournalCall.row
  positive : ∀ c ∈ calls, ∀ ref, c.ref = some ref → 0 < c.shares
  shares : ∀ ref pos, .opened ref pos ∈ s.log →
    calledShares ref calls + s.trackedShares ref = pos.shares
  realized : s.risk.realizedPnl = (s.closedTrades.map JournalRow.amount).sum

theorem account_init : Account [] (Desk.init env) where
  known := Desk.known_init
  opened ref := by simp [Desk.init]
  called := by simp
  rows := rfl
  positive := by simp
  shares ref pos h := absurd h (by simp [Desk.init])
  realized := rfl

theorem Account.conserved (h : Account calls s) : Conserved calls s where
  rows := h.rows
  positive ref _ _ c hc href := h.positive c hc ref href
  shares := h.shares
  realized := h.realized

/-- What was not called for an object was not sold of it. -/
theorem calledShares_of_none (h : ∀ c ∈ calls, c.ref ≠ some ref) : calledShares ref calls = 0 := by
  have hnil : (calls.filter fun c => c.ref = some ref) = [] := by
    rw [List.filter_eq_nil_iff]
    intro c hc
    simpa using h c hc
  rw [calledShares, hnil]; rfl

namespace Desk

/-- What the log says was opened, after an entry. -/
theorem opened_post {p : Posting} {pos : DemoPosition} :
    .opened ref pos ∈ (s.post p).log
      ↔ .opened ref pos ∈ s.log ∨ p = .opens pos ∧ ref = s.nextRef := by
  have happend : ∀ (es : List DemoEvent), (∀ e ∈ es, e ≠ .opened ref pos) →
      (.opened ref pos ∈ s.log ++ es ↔ .opened ref pos ∈ s.log) := by
    intro es hes
    rw [List.mem_append, or_iff_left fun h => hes _ h rfl]
  cases p with
  | opens pos' =>
      change _ ∈ s.log ++ [DemoEvent.opened s.nextRef pos'] ↔ _
      rw [List.mem_append, List.mem_singleton, DemoEvent.opened.injEq, Posting.opens.injEq]
      constructor
      · rintro (h | ⟨rfl, rfl⟩)
        · exact Or.inl h
        · exact Or.inr ⟨rfl, rfl⟩
      · rintro (h | ⟨rfl, rfl⟩)
        · exact Or.inl h
        · exact Or.inr ⟨rfl, rfl⟩
  | scales exit half =>
      obtain ⟨pnl, hlog⟩ := log_bookScaleOut (s := s) exit half
      rw [post, hlog, happend _ (by simp)]
      simp
  | closes exit reason =>
      obtain ⟨pnl, hlog⟩ := log_bookExit (s := s) exit reason
      change _ ∈ (s.bookExit exit reason).log ↔ _
      rw [hlog, happend _ (by simp)]
      simp
  | replays pos' x reason now =>
      change _ ∈ (s.log ++ [_]) ++ [_] ↔ _
      rw [List.append_assoc, happend _ (by simp)]
      simp
  | nothing | clears | restops => simp [post, setObject]

end Desk

/-- The books say what was opened. -/
theorem Desk.SameBooks.opened {t : Desk} (h : t.SameBooks s') {pos : DemoPosition} :
    .opened ref pos ∈ s'.log ↔ .opened ref pos ∈ t.log := by
  obtain ⟨es, hes, hposted⟩ := h.log
  rw [hes, List.mem_append, or_iff_left]
  intro hmem
  exact absurd (hposted _ hmem) (by simp [DemoEvent.posted])

/-- The books say what is tracked. -/
theorem Desk.SameBooks.trackedShares {t : Desk} (h : t.SameBooks s') (ref : ℕ) :
    s'.trackedShares ref = t.trackedShares ref :=
  trackedShares_congr (fun symbol => by rw [h.positions]) (by rw [h.objects])

/-- What an entry journals exists. -/
theorem Desk.Known.journals (h : s.Known) {l : DeskLabel} {c : JournalCall}
    (hc : c ∈ s.journals (s.posting env l)) (href : c.ref = some ref) : ref < s.nextRef := by
  cases hp : s.posting env l with
  | scales exit half =>
      rw [hp] at hc
      rw [List.mem_singleton.mp hc] at href
      exact Option.some.inj href ▸ (h.scales hp).1.1
  | closes exit reason =>
      rw [hp] at hc
      rw [List.mem_singleton.mp hc] at href
      exact Option.some.inj href ▸ (h.closes hp).1
  | replays =>
      rw [hp] at hc
      rw [List.mem_singleton.mp hc] at href
      exact absurd href (by simp)
  | _ => rw [hp] at hc; exact absurd hc (by simp [Desk.journals])

/-- A posting adds to the rows what it adds to the realized P&L exactly when it is printed
without loss. -/
theorem Desk.amounts_journals (p : Posting) :
    (((s.journals p).map JournalCall.row).map JournalRow.amount).sum
        = ((s.journals p).map JournalCall.realized).sum
      ↔ ∀ c ∈ s.journals p, c.InCents := by
  -- an entry comes with one call at most
  have hone : ∀ c : JournalCall, ((([c].map JournalCall.row).map JournalRow.amount).sum
      = ([c].map JournalCall.realized).sum) ↔ ∀ c' ∈ [c], c'.InCents := by
    intro c
    rw [List.forall_mem_singleton, ← JournalCall.amount_row_iff]
    simp only [List.map_cons, List.map_nil, List.sum_singleton]
  cases p with
  | scales | closes | replays => exact hone _
  | _ => exact iff_of_true rfl (by simp [journals])

/-- The realized P&L stays what the rows come to exactly when the step is printed without loss. -/
theorem Account.realized_iff {l : DeskLabel} (h : Account calls s) (hs : s.step env l = some s') :
    s'.risk.realizedPnl = (s'.closedTrades.map JournalRow.amount).sum
      ↔ ∀ c ∈ s.journals (s.posting env l), c.InCents := by
  have hbooks := Desk.step_posts hs
  rw [hbooks.risk.realized, Desk.realizedPnl_post, hbooks.closedTrades, Desk.closedTrades_post,
    List.map_append, List.sum_append, h.realized, add_right_inj, eq_comm, Desk.amounts_journals]

/-- **What a balanced entry keeps**, if it is printed without loss. -/
theorem Account.step {l : DeskLabel} (h : Account calls s) (hs : s.step env l = some s')
    (hb : s.Balances (s.posting env l)) (hcents : ∀ c ∈ s.journals (s.posting env l), c.InCents) :
    Account (calls ++ s.journals (s.posting env l)) s' := by
  have hbooks := Desk.step_posts hs
  have hlt : ∀ ref, ref < s'.nextRef ↔ ref < s.nextRef
      ∨ (∃ pos, s.posting env l = .opens pos) ∧ ref = s.nextRef := fun ref => by
    rw [hbooks.nextRef, Desk.lt_nextRef_post]
  refine ⟨h.known.step hs, fun ref => ?_, fun c hc ref href => ?_, ?_, fun c hc ref href => ?_,
    fun ref pos hopen => ?_, (h.realized_iff hs).mpr hcents⟩
  · rw [hlt, ← h.opened]
    simp only [hbooks.opened, Desk.opened_post, exists_or, exists_and_right]
  · rcases List.mem_append.mp hc with hc | hc
    · exact (hlt ref).mpr (Or.inl (h.called c hc ref href))
    · exact (hlt ref).mpr (Or.inl (h.known.journals hc href))
  · rw [hbooks.closedTrades, Desk.closedTrades_post, h.rows, List.map_append]
  · rcases List.mem_append.mp hc with hc | hc
    · exact h.positive c hc ref href
    · exact hb.positive c hc ref href
  · rw [hbooks.opened, Desk.opened_post] at hopen
    rw [calledShares_append, hbooks.trackedShares]
    rcases hopen with hopen | ⟨hp, rfl⟩
    · -- a share that leaves the object is in the journal
      have hbal := hb.shares ref ((h.opened ref).mp ⟨pos, hopen⟩)
      have hsum := h.shares ref pos hopen
      omega
    · -- nothing is journaled of the new object
      rw [calledShares_of_none fun c hc href => absurd (h.called c hc _ href) (lt_irrefl _), hp,
        Desk.trackedShares_opened]
      exact zero_add _

/-- **What a conserved ledger needs.** -/
theorem Account.balances {l : DeskLabel} (h : Account calls s) (hs : s.step env l = some s')
    (hc : Conserved (calls ++ s.journals (s.posting env l)) s') :
    s.Balances (s.posting env l) := by
  have hbooks := Desk.step_posts hs
  have hstill : ∀ ref pos, .opened ref pos ∈ s.log → .opened ref pos ∈ s'.log := fun ref pos ho =>
    hbooks.opened.mpr (Desk.opened_post.mpr (Or.inl ho))
  refine ⟨fun ref hlt => ?_, fun c hcall ref href => ?_⟩
  · obtain ⟨pos, hopen⟩ := (h.opened ref).mpr hlt
    have hbefore := h.shares ref pos hopen
    have hafter := hc.shares ref pos (hstill ref pos hopen)
    rw [calledShares_append, hbooks.trackedShares] at hafter
    omega
  · obtain ⟨pos, hopen⟩ := (h.opened ref).mpr (h.known.journals hcall href)
    exact hc.positive ref pos (hstill ref pos hopen) c (List.mem_append_right _ hcall) href

end Shares

theorem journalCalls_append (env : DemoEnv) (ms : List (Move Desk DeskLabel))
    (m : Move Desk DeskLabel) : journalCalls env (ms ++ [m])
      = journalCalls env ms ++ m.pre.journals (m.pre.posting env m.label) := by
  simp [journalCalls]

/-- **Exactly the runs that keep the account conserve the ledger**: with a broker that accepts every
order, each position opened is accounted for all along, and the realized P&L is that of the rows, if
and only if no step forgets shares or sells them twice, and no row loses a part of a cent. -/
theorem conserved_iff (env : DemoEnv) (x : AcceptedRun env) :
    (∀ ms s, x.Passes ms s → Conserved (journalCalls env ms) s)
      ↔ ∀ m ∈ x.moves, m.pre.KeepsAccount (m.pre.posting env m.label)
        ∧ ∀ c ∈ m.pre.journals (m.pre.posting env m.label), c.InCents := by
  have hstep : ∀ {s l s'}, Desk.acceptedStep env s l = some s' → s.step env l = some s' :=
    fun hs => (Option.ite_none_right_eq_some.mp hs).2
  refine x.passes_iff (I := fun ms s => Account (journalCalls env ms) s) account_init
    (fun ms s h => h.conserved) ?_ ?_
  · rintro ms s l s' h hs ⟨hk, hcents⟩
    rw [journalCalls_append]
    exact h.step (hstep hs) ((Desk.keepsAccount_iff h.known l).mp hk) hcents
  · intro ms s l s' h hs hc
    refine ⟨?_, (h.realized_iff (hstep hs)).mp hc.realized⟩
    rw [journalCalls_append] at hc
    exact (Desk.keepsAccount_iff h.known l).mpr (h.balances (hstep hs) hc)

/-- The operator buys a hundred shares, and flattens everything. -/
def boughtAndFlattened : List DeskLabel :=
  [.request 0 (.manualOrder "TEST" .buy 100 10), .taskAck 0 orderTaken, .request 1 .flattenAll,
    .taskFlattened 1]

/-- The hundred shares are nowhere. -/
theorem flattened_not_conserved :
    ¬ ∀ (env : DemoEnv) (x : AcceptedRun env) ms s, x.Passes ms s →
      Conserved (journalCalls env ms) s := by
  intro h
  let x : AcceptedRun deskDay := (Execution.start _ _).play boughtAndFlattened
  have hshares := (h deskDay x x.moves x.final x.passes_final).shares 0
    (Desk.manualPosition "TEST" 100 10 openingBell) (by decide +kernel)
  exact absurd hshares (by decide +kernel)

end RossBot

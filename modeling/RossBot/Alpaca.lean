import Mathlib.Data.List.Infix
import RossBot.Lib.Dict
import RossBot.Market

/-!
# The Alpaca adapter

`adapters/alpaca_broker.py`: how the answers of the trading API become the
values the live session sees. An API call that raises is `none`.
-/

namespace RossBot

open Lib

/-- One row of `get_all_positions`; `qty` is `none` when it does not parse. -/
structure PositionRow where
  symbol : Symbol
  qty : Option ℚ
  deriving DecidableEq

/-- Keep one row: `int(float(str(p.qty)))`, positive quantities only. -/
def keepRow (d : Dict Symbol ℤ) (p : PositionRow) : Dict Symbol ℤ :=
  match p.qty with
  | none => d
  | some q => if 0 < roundDown q then d.set p.symbol (roundDown q) else d

/-- `get_broker_positions`. A failed call reads as an empty account. -/
def getBrokerPositions : Option (List PositionRow) → Dict Symbol ℤ
  | none => ∅
  | some rows => rows.foldl keepRow ∅

/-- `_order_to_ack`. -/
def orderToAck (brokerId status clientOrderId : String) : OrderAck where
  clientOrderId := clientOrderId
  brokerOrderId := some brokerId
  accepted := !(status = "rejected" || status = "expired" || status = "canceled")
  status := status
  message := none

/-- `_is_duplicate_id_error`, on the text of the exception. -/
def isDuplicateIdError (message : String) : Bool :=
  let holds (text : String) : Bool := decide (text.toList <:+: message.toLower.toList)
  holds "already exist" || holds "client_order_id" || holds "422"

/-- `_fetch_existing_order_ack`: `found` is the id and status of the order that
`get_order_by_id` returns. -/
def fetchExistingOrderAck (clientOrderId message : String) (found : Option (String × String)) :
    OrderAck :=
  match found with
  | some (brokerId, status) => orderToAck brokerId status clientOrderId
  | none =>
      { clientOrderId := clientOrderId, brokerOrderId := none, accepted := false,
        status := "duplicate_error", message := some message }

/-- `_place_limit`, from what `submit_order` returns or raises. -/
def placeLimit (clientOrderId : String) (submitted : Except String (String × String))
    (found : Option (String × String)) : OrderAck :=
  match submitted with
  | .ok (brokerId, status) => orderToAck brokerId status clientOrderId
  | .error message =>
      if isDuplicateIdError message then fetchExistingOrderAck clientOrderId message found
      else
        { clientOrderId := clientOrderId, brokerOrderId := none, accepted := false,
          status := "error", message := some message }

/-- `cancel_all_flatten`, from the symbols `close_all_positions` reports (or its error text). -/
def cancelAllFlatten : Except String (List Symbol) → List OrderAck
  | .error msg =>
      [{ clientOrderId := "kill_switch", brokerOrderId := none, accepted := false,
         status := "error", message := some msg }]
  | .ok closed => closed.map fun sym =>
      { clientOrderId := "flatten_" ++ sym, brokerOrderId := some "", accepted := true,
        status := "flatten_submitted", message := none }

/-- Without an order to be found, an exception is no acceptance. -/
theorem placeLimit_error_none (clientOrderId message : String) :
    (placeLimit clientOrderId (.error message) none).accepted = false := by
  unfold placeLimit
  dsimp only
  split <;> rfl

/-! ## What the position map says about the rows -/

/-- A symbol already in the map stays in it. -/
theorem contains_foldl_keepRow {rows : List PositionRow} {d : Dict Symbol ℤ} {s : Symbol}
    (h : ∃ q, d.get? s = some q) : ∃ q, (rows.foldl keepRow d).get? s = some q := by
  induction rows generalizing d with
  | nil => exact h
  | cons p rows ih =>
      refine ih ?_
      unfold keepRow
      split
      · exact h
      · split
        · rw [Dict.get?_set]
          split
          · exact ⟨_, rfl⟩
          · exact h
        · exact h

/-- Every row with a positive whole quantity is in the position map. -/
theorem getBrokerPositions_of_row {rows : List PositionRow} {p : PositionRow} (hp : p ∈ rows)
    {x : ℚ} (hq : p.qty = some x) (hx : 0 < roundDown x) :
    ∃ q, (getBrokerPositions (some rows)).get? p.symbol = some q := by
  obtain ⟨l, r, rfl⟩ := List.append_of_mem hp
  rw [getBrokerPositions, List.foldl_append, List.foldl_cons]
  refine contains_foldl_keepRow ⟨roundDown x, ?_⟩
  rw [keepRow, hq]
  dsimp only
  rw [if_pos hx, Dict.get?_set_self]

end RossBot

import Mathlib.Data.List.Basic
import Mathlib.Data.UInt

/-! # The Data Source decoder

`ancs_parse_data` and its caller, resumable at any byte of a response. Reads of a
fragment and writes of `g_ancs_data` are checked here, and the loop runs on fuel:
a fault stands for an access out of range or for a loop that does not end.
-/

namespace CubieBle.Ancs

inductive Fault where
  | fuel | fragmentIndex | bufferIndex
deriving DecidableEq, Repr

/-- `ds_decoder_state` -/
inductive DsDecoderState where
  | hdr | attrid | attrlen | attrdata | unknown
deriving DecidableEq, Repr

def ancsCmdGetNotificationAtt : UInt16 := 0

/-- `ANCS_DS_HDR_LEN` -/
def ancsDsHdrLen : Nat := 5

/-- `ANCS_MAX_NOTIF_ATT_LENGTH` -/
def ancsMaxNotifAttLength : Nat := 20

/-- `struct ancs_attribute_data_t` -/
structure AttributeData where
  attrLen : UInt16 := 0
  pendingLen : Bool := false
  remAttrLen : UInt16 := 0
  pendingAttrData : UInt16 := 0
  dsDecoderState : DsDecoderState := .hdr
  pendingCmd : UInt16 := ancsCmdGetNotificationAtt
  attrId : UInt16 := 0
deriving DecidableEq, Repr

/-- What is printed, in order. A piece is the part of `g_ancs_data` before the
terminating zero that the copy loop put there. -/
inductive Display where
  | invalidCommand
  | attrId (id : UInt8) (name : String)
  | attrLen (len : UInt16)
  | attrData (piece : List UInt8)
  | displayName (name : List UInt8)
deriving DecidableEq, Repr

/-- The names of the attribute ids; all others are reserved. -/
def notifAttName (id : UInt8) : Option String :=
  if id = 0 then some " App ID"
  else if id = 1 then some " Title "
  else if id = 2 then some " Sub Title"
  else if id = 3 then some " Message"
  else if id = 4 then some " Message Size"
  else if id = 5 then some " Date"
  else none

/-- The variables of `ancs_parse_data`, with the static data it works on. -/
structure Parse where
  data : AttributeData
  count : Nat := 0
  state : DsDecoderState
  skipReserved : Bool := false
  shown : List Display := []
deriving DecidableEq, Repr

/-- `p_data[i]` -/
def byteAt (fragment : List UInt8) (i : Nat) : Except Fault UInt8 :=
  match fragment[i]? with
  | some byte => .ok byte
  | none => .error .fragmentIndex

/-- The copy loop: `i` bytes from `count` on are still to be copied to position
`at_`, and the terminating zero behind them. -/
def copyLoop (fragment : List UInt8) (count : Nat) : Nat → Nat → Except Fault (List UInt8)
  | at_, 0 => if at_ < ancsMaxNotifAttLength + 1 then .ok [] else .error .bufferIndex
  | at_, left + 1 =>
      if at_ < ancsMaxNotifAttLength + 1 then do
        let byte ← byteAt fragment (count + at_)
        let rest ← copyLoop fragment count (at_ + 1) left
        return byte :: rest
      else .error .bufferIndex

def parseHdr (fragment : List UInt8) (parse : Parse) : Except Fault (Bool × Parse) := do
  let byte ← byteAt fragment 0
  let parse := { parse with count := ancsDsHdrLen }
  if byte ≠ 0 then return (false, { parse with shown := parse.shown ++ [.invalidCommand] })
  else return (true, { parse with state := .attrid })

def parseAttrid (fragment : List UInt8) (parse : Parse) : Except Fault (Bool × Parse) := do
  let id ← byteAt fragment parse.count
  match notifAttName id with
  | some name =>
      return (true, { parse with
        count := parse.count + 1
        data.attrId := id.toUInt16
        state := .attrlen
        shown := parse.shown ++ [.attrId id name] })
  | none =>
      return (true, { parse with
        count := parse.count + 1
        data.attrId := 0xff
        state := .attrid
        skipReserved := true
        shown := parse.shown ++ [.attrId id " Reserved"] })

/-- The length is complete: show it and go on to the data. -/
def attrLenDone (parse : Parse) (len : UInt16) : Parse :=
  { parse with
    data.attrLen := len
    state := .attrdata
    shown := parse.shown ++ [.attrLen len] }

def parseAttrlen (fragment : List UInt8) (parse : Parse) : Except Fault (Bool × Parse) := do
  if parse.data.pendingLen then
    let high ← byteAt fragment parse.count
    let len := (high.toUInt16 <<< 8) ||| parse.data.remAttrLen
    return (true, attrLenDone
      { parse with
        count := parse.count + 1
        data.remAttrLen := 0
        data.pendingLen := false } len)
  else if parse.count + 1 < fragment.length then
    let low ← byteAt fragment parse.count
    let high ← byteAt fragment (parse.count + 1)
    return (true, attrLenDone { parse with count := parse.count + 2 }
      (low.toUInt16 ||| (high.toUInt16 <<< 8)))
  else
    -- the fragment ends between the two bytes of the length
    let low ← byteAt fragment parse.count
    return (true, { parse with
      count := parse.count + 1
      data.remAttrLen := low.toUInt16
      data.pendingLen := true })

/-- The end of the data case: with nothing left, move to the next attribute. -/
def attrDataDone (parse : Parse) : Parse :=
  if parse.data.pendingAttrData == 0 && parse.data.attrLen == 0 then
    { parse with state := .attrid, data.attrId := 0xff }
  else parse

/-- Both branches bound the bytes to copy by `pending_attr_data`, which is zero
in the second one: the first visit copies nothing and only moves the length. -/
def parseAttrdata (fragment : List UInt8) (parse : Parse) : Except Fault (Bool × Parse) := do
  let dataLen := min parse.data.pendingAttrData.toNat (fragment.length - parse.count)
  if parse.data.pendingAttrData ≠ 0 then
    let piece ← copyLoop fragment parse.count 0 dataLen
    return (true, attrDataDone { parse with
      count := parse.count + dataLen
      data.pendingAttrData := parse.data.pendingAttrData - UInt16.ofNat dataLen
      shown := parse.shown ++ [.attrData piece] })
  else if 0 < parse.data.attrLen then
    let piece ← copyLoop fragment parse.count 0 dataLen
    return (true, attrDataDone { parse with
      count := parse.count + dataLen
      data.pendingAttrData := parse.data.attrLen - UInt16.ofNat dataLen
      data.attrLen := 0
      shown := parse.shown ++ [.attrData piece] })
  else return (true, attrDataDone parse)

/-- The `switch` of the loop; `false` is the return from the header case. -/
def parseSwitch (fragment : List UInt8) (parse : Parse) : Except Fault (Bool × Parse) :=
  match parse.state with
  | .hdr => parseHdr fragment parse
  | .attrid => parseAttrid fragment parse
  | .attrlen => parseAttrlen fragment parse
  | .attrdata => parseAttrdata fragment parse
  | .unknown => .ok (true, parse)

/-- The `while` loop and the store of the state behind it. -/
def parseLoop (fragment : List UInt8) : Nat → Parse → Except Fault (Bool × Parse)
  | 0, _ => .error .fuel
  | fuel + 1, parse =>
      if parse.count < fragment.length ∧ parse.skipReserved = false then do
        let (continues, next) ← parseSwitch fragment parse
        if continues then parseLoop fragment fuel next else return (false, next)
      else .ok (true, { parse with data.dsDecoderState := parse.state })

/-- Enough for three rounds of the loop at each byte. -/
def parseFuel (fragment : List UInt8) : Nat := 3 * fragment.length + 5

def ancsParseData (data : AttributeData) (fragment : List UInt8) :
    Except Fault (AttributeData × List Display) := do
  let (_, parse) ← parseLoop fragment (parseFuel fragment)
    { data := data, state := data.dsDecoderState }
  return (parse.data, parse.shown)

/-- The header of a response is expected when nothing of an attribute is pending. -/
def headerExpected (data : AttributeData) (first : UInt8) : Bool :=
  first == 0 && data.pendingAttrData == 0 && data.attrLen == 0 && !data.pendingLen &&
    (data.dsDecoderState == .hdr || data.dsDecoderState == .attrid)

/-- The guess at the start of a fragment whether a header begins. -/
def resynchronise (data : AttributeData) (first : UInt8) : AttributeData :=
  if headerExpected data first then { data with dsDecoderState := .hdr } else data

def ancsHandleDataSourceData (data : AttributeData) (fragment : List UInt8) :
    Except Fault (AttributeData × List Display) := do
  if data.pendingCmd == ancsCmdGetNotificationAtt then
    let first ← byteAt fragment 0
    ancsParseData (resynchronise data first) fragment
  else return (data, [.displayName (fragment.drop 1)])

def ancsClearAttributeData (data : AttributeData) : AttributeData :=
  { data with
    dsDecoderState := .hdr
    attrLen := 0
    pendingLen := false
    remAttrLen := 0
    pendingAttrData := 0 }

/-- One more fragment, with all that was printed so far. -/
def receive (current : AttributeData × List Display) (fragment : List UInt8) :
    Except Fault (AttributeData × List Display) := do
  let (data, shown) ← ancsHandleDataSourceData current.1 fragment
  return (data, current.2 ++ shown)

end CubieBle.Ancs

import Susm.Controller.LogReader
import Susm.Foundation.CursorLoop
import Susm.Supervisor.RuntimeReader

/-!
# The cursor of the log decoder

The two loops of `decode_journal` over one cursor, with every slice, index and
addition checked.  Whatever the bytes are, each round moves the cursor forward,
and the loops return what the reader of the rest of the bytes returns.
-/

namespace Susm.Controller

open Susm.Foundation
open Susm.Protocol
open Susm.Supervisor

/-- No slice is longer than `isize::MAX`. -/
structure LogSlice where
  bytes : List UInt8
  length_lt : bytes.length < 2 ^ 63

/-! ## Checked accesses -/

/-- `first + second` -/
def sumOf (first second : Nat) : Completion Nat :=
  .ofOption (checked usizeLimit (first + second))

/-- `bytes[first..last]` -/
def partOf (bytes : List UInt8) (first last : Nat) :
    Completion (List UInt8) :=
  .ofOption (sliceChecked bytes first last)

/-- `bytes[index]` -/
def byteOf (bytes : List UInt8) (index : Nat) : Completion UInt8 :=
  .ofOption bytes[index]?

/-- `u64::from_le_bytes` of a slice that must be eight bytes long. -/
def u64Of (header : List UInt8) : Completion Nat :=
  if header.length = 8 then .returned (ofLeBytes header) else .panicked

def position (separator : UInt8) (bytes : List UInt8) : Option Nat :=
  bytes.findIdx? fun byte => decide (byte = separator)

/-! ## The loops -/

structure LineState where
  cursor : Nat
  fields : LogFields
  deriving DecidableEq, Repr

/-- Behind a line `MESSAGE`. -/
def messageRound (bytes : List UInt8) (state : LineState) :
    Completion (LineState ⊕ LineState) :=
  if saturatingAdd usizeLimit state.cursor 8 > bytes.length then
    return .inr { state with cursor := bytes.length }
  else do
    let header ← partOf bytes state.cursor (← sumOf state.cursor 8)
    let length ← u64Of header
    let cursor ← sumOf state.cursor 8
    match checked usizeLimit length with
    | none => return .inr { state with cursor := bytes.length }
    | some length =>
        if saturatingAdd usizeLimit (saturatingAdd usizeLimit cursor length) 1 >
            bytes.length then
          return .inr { state with cursor := bytes.length }
        else do
          let message ← partOf bytes cursor (← sumOf cursor length)
          let fields := { state.fields with message := some message }
          let cursor ← sumOf cursor length
          let byte ← byteOf bytes cursor
          if byte ≠ lineFeed then return .inr ⟨bytes.length, fields⟩
          else return .inl ⟨← sumOf cursor 1, fields⟩

def fieldRound (line : List UInt8) (state : LineState) :
    Completion (LineState ⊕ LineState) :=
  match position equalsSign line with
  | none => return .inl state
  | some separator => do
      let name ← partOf line 0 separator
      let value ← partOf line (← sumOf separator 1) line.length
      return .inl
        { state with fields := state.fields.set name (fromUtf8Lossy value) }

/-- A round of the inner loop. -/
def lineRound (bytes : List UInt8) (state : LineState) :
    Completion (LineState ⊕ LineState) := do
  let behind ← partOf bytes state.cursor bytes.length
  match position lineFeed behind with
  | none => return .inr { state with cursor := bytes.length }
  | some lineEnd => do
      let line ← partOf bytes state.cursor (← sumOf state.cursor lineEnd)
      let cursor ← sumOf state.cursor (← sumOf lineEnd 1)
      if line = [] then return .inr { state with cursor := cursor }
      else if line = utf8 "MESSAGE".toList then
        messageRound bytes { state with cursor := cursor }
      else fieldRound line { state with cursor := cursor }

structure RecordState where
  cursor : Nat
  records : List ReadLogsResponse
  deriving DecidableEq, Repr

/-- A round of the outer loop, for so many rounds of the inner one. -/
def recordRound (fuel : Nat) (bytes : List UInt8) (executionId : String)
    (attempt : Nat) (state : RecordState) :
    Completion (RecordState ⊕ RecordState) :=
  if state.cursor < bytes.length then do
    let last ← repeatRounds (lineRound bytes) fuel ⟨state.cursor, .empty⟩
    let record := last.fields.record executionId attempt
    if last.cursor = state.cursor then return .inr state
    else return .inl ⟨last.cursor, state.records ++ record.toList⟩
  else return .inr state

/-- `decode_journal` with its cursor. -/
def decodeJournalChecked (fuel : Nat) (bytes : List UInt8)
    (executionId : String) (attempt : Nat) :
    Completion (List ReadLogsResponse) := do
  let last ←
    repeatRounds (recordRound fuel bytes executionId attempt) fuel ⟨0, []⟩
  return last.records

/-! ## Accesses within the bytes -/

section Within

variable {bytes done part rest : List UInt8}

theorem sumOf_within {first second : Nat} (h : first + second < usizeLimit) :
    sumOf first second = .returned (first + second) := by
  rw [sumOf, checked_of_lt h, Completion.ofOption_some]

theorem partOf_append :
    partOf (done ++ (part ++ rest)) done.length (done.length + part.length) =
      .returned part := by
  have hwithin : done.length + part.length ≤
      (done ++ (part ++ rest)).length := by
    simp
  rw [partOf, sliceChecked_within (Nat.le_add_right _ _) hwithin, slice,
    Nat.add_sub_cancel_left, List.drop_left, List.take_left,
    Completion.ofOption_some]

theorem partOf_end :
    partOf (done ++ rest) done.length (done ++ rest).length =
      .returned rest := by
  have hpart := @partOf_append done rest []
  rwa [List.append_nil, ← List.length_append] at hpart

theorem byteOf_append (byte : UInt8) :
    byteOf (done ++ byte :: rest) done.length = .returned byte := by
  simp [byteOf]

theorem position_eq (separator : UInt8) (bytes : List UInt8) :
    position separator bytes =
      (splitOnce separator bytes).map fun parts => parts.1.length :=
  findIdx?_eq_splitOnce

end Within

/-! ## Messages of any length -/

/-- What can be behind a line `MESSAGE`. -/
inductive MessageBytes : List UInt8 → Prop
  | short {rest : List UInt8} (h : rest.length < 8) : MessageBytes rest
  | torn (header payload : List UInt8) (hheader : header.length = 8)
      (hpayload : payload.length ≤ ofLeBytes header) :
      MessageBytes (header ++ payload)
  | whole (header message : List UInt8) (byte : UInt8) (left : List UInt8)
      (hheader : header.length = 8)
      (hmessage : message.length = ofLeBytes header) :
      MessageBytes (header ++ (message ++ byte :: left))

theorem messageBytes (rest : List UInt8) : MessageBytes rest := by
  by_cases hshort : rest.length < 8
  · exact .short hshort
  have hheader : (rest.take 8).length = 8 := by
    rw [List.length_take]
    omega
  have hsplit := List.take_append_drop 8 rest
  generalize rest.take 8 = header at hheader hsplit
  generalize rest.drop 8 = payload at hsplit
  subst hsplit
  by_cases htorn : payload.length ≤ ofLeBytes header
  · exact .torn header payload hheader htorn
  have hmessage : (payload.take (ofLeBytes header)).length =
      ofLeBytes header := by
    rw [List.length_take]
    omega
  have hparts := List.take_append_drop (ofLeBytes header) payload
  cases hbehind : payload.drop (ofLeBytes header) with
  | nil =>
      rw [List.drop_eq_nil_iff] at hbehind
      exact absurd hbehind htorn
  | cons byte left =>
      rw [hbehind] at hparts
      rw [← hparts]
      exact .whole header _ byte left hheader hmessage

section Message

variable {done rest header payload message left : List UInt8} {byte : UInt8}
  {fields : LogFields}

theorem readMessage_torn (hheader : header.length = 8)
    (hpayload : payload.length ≤ ofLeBytes header) :
    readMessage (header ++ payload) = none := by
  have hlong : ¬ (header ++ payload).length < 8 := by
    rw [List.length_append]
    omega
  rw [readMessage, if_neg hlong]
  dsimp only
  rw [List.take_left' hheader, List.drop_left' hheader,
    List.drop_eq_nil_of_le hpayload]

theorem readMessage_append (hheader : header.length = 8)
    (hmessage : message.length = ofLeBytes header) :
    readMessage (header ++ (message ++ byte :: left)) =
      some (message, if byte = lineFeed then some left else none) := by
  have hlong : ¬ (header ++ (message ++ byte :: left)).length < 8 := by
    rw [List.length_append]
    omega
  rw [readMessage, if_neg hlong]
  dsimp only
  rw [List.take_left' hheader, List.drop_left' hheader,
    List.take_left' hmessage, List.drop_left' hmessage]

theorem messageRound_short (hlength : (done ++ rest).length < 2 ^ 63)
    (hshort : rest.length < 8) :
    messageRound (done ++ rest) ⟨done.length, fields⟩ =
      .returned (.inr ⟨(done ++ rest).length, fields⟩) := by
  have hsum : (done ++ rest).length < done.length + 8 := by
    rw [List.length_append]
    omega
  have hlimit : done.length + 8 < usizeLimit := by
    rw [List.length_append] at hlength
    unfold usizeLimit
    omega
  rw [messageRound]
  dsimp only
  rw [saturatingAdd_of_lt hlimit, if_pos hsum, Completion.pure_eq]

theorem messageRound_header (hheader : header.length = 8)
    (hlength : (done ++ (header ++ payload)).length < 2 ^ 63) :
    done.length + 8 ≤ (done ++ (header ++ payload)).length ∧
      saturatingAdd usizeLimit done.length 8 = done.length + 8 ∧
      sumOf done.length 8 = .returned (done.length + 8) ∧
      partOf (done ++ (header ++ payload)) done.length (done.length + 8) =
        .returned header ∧
      u64Of header = .returned (ofLeBytes header) := by
  have hsum : done.length + 8 ≤ (done ++ (header ++ payload)).length := by
    simp only [List.length_append]
    omega
  have hlimit : done.length + 8 < usizeLimit := by
    unfold usizeLimit
    omega
  refine ⟨hsum, saturatingAdd_of_lt hlimit, sumOf_within hlimit, ?_, ?_⟩
  · rw [← hheader]
    exact partOf_append
  · rw [u64Of, if_pos hheader]

theorem messageRound_torn (hheader : header.length = 8)
    (hpayload : payload.length ≤ ofLeBytes header)
    (hlength : (done ++ (header ++ payload)).length < 2 ^ 63) :
    messageRound (done ++ (header ++ payload)) ⟨done.length, fields⟩ =
      .returned (.inr ⟨(done ++ (header ++ payload)).length, fields⟩) := by
  obtain ⟨hinside, hsaturating, hsum, hpart, hvalue⟩ :=
    messageRound_header hheader hlength
  rw [messageRound]
  dsimp only
  rw [hsaturating, if_neg (not_lt.mpr hinside)]
  simp only [hsum, hpart, hvalue, Completion.bind_eq,
    Completion.bind_returned]
  cases hchecked : checked usizeLimit (ofLeBytes header) with
  | none => rfl
  | some length =>
      obtain ⟨-, rfl⟩ := checked_eq_some_iff.mp hchecked
      -- a sum that saturates is longer than any slice
      have hlong : saturatingAdd usizeLimit
          (saturatingAdd usizeLimit (done.length + 8) (ofLeBytes header)) 1 >
            (done ++ (header ++ payload)).length := by
        simp only [List.length_append] at hlength ⊢
        unfold saturatingAdd usizeLimit
        omega
      dsimp only
      rw [if_pos hlong, Completion.pure_eq]

theorem messageRound_whole (hheader : header.length = 8)
    (hmessage : message.length = ofLeBytes header)
    (hlength : (done ++ (header ++ (message ++ byte :: left))).length <
      2 ^ 63) :
    messageRound (done ++ (header ++ (message ++ byte :: left)))
        ⟨done.length, fields⟩ =
      .returned
        (if byte = lineFeed then
          .inl ⟨(done ++ header ++ message ++ [byte]).length,
            { fields with message := message }⟩
        else
          .inr ⟨(done ++ (header ++ (message ++ byte :: left))).length,
            { fields with message := message }⟩) := by
  obtain ⟨hinside, hsaturating, hsum, hpart, hvalue⟩ :=
    messageRound_header hheader hlength
  have hbytes : done.length + 8 + ofLeBytes header + 1 ≤
      (done ++ (header ++ (message ++ byte :: left))).length := by
    simp only [List.length_append, List.length_cons]
    omega
  have hlimit : (done ++ (header ++ (message ++ byte :: left))).length <
      usizeLimit := by
    unfold usizeLimit
    omega
  have hfirst : sumOf (done.length + 8) (ofLeBytes header) =
      .returned (done.length + 8 + ofLeBytes header) :=
    sumOf_within (by omega)
  have hlast : sumOf (done.length + 8 + ofLeBytes header) 1 =
      .returned (done.length + 8 + ofLeBytes header + 1) :=
    sumOf_within (by omega)
  have htext : partOf (done ++ (header ++ (message ++ byte :: left)))
      (done.length + 8) (done.length + 8 + ofLeBytes header) =
        .returned message := by
    have happend := @partOf_append (done ++ header) message (byte :: left)
    rwa [List.length_append, hheader, hmessage, List.append_assoc] at happend
  have hbyte : byteOf (done ++ (header ++ (message ++ byte :: left)))
      (done.length + 8 + ofLeBytes header) = .returned byte := by
    have happend := @byteOf_append (done ++ header ++ message) left byte
    rwa [List.length_append, List.length_append, hheader, hmessage,
      List.append_assoc, List.append_assoc] at happend
  have hroom : ¬ saturatingAdd usizeLimit
      (saturatingAdd usizeLimit (done.length + 8) (ofLeBytes header)) 1 >
        (done ++ (header ++ (message ++ byte :: left))).length := by
    rw [@saturatingAdd_of_lt usizeLimit (done.length + 8) _ (by omega),
      saturatingAdd_of_lt (by omega)]
    omega
  rw [messageRound]
  dsimp only
  rw [hsaturating, if_neg (not_lt.mpr hinside)]
  simp only [hsum, hpart, hvalue, Completion.bind_eq,
    Completion.bind_returned, checked_of_lt (show ofLeBytes header <
      usizeLimit by omega), if_neg hroom, hfirst, htext, hbyte, hlast]
  by_cases hfeed : byte = lineFeed
  · simp [hfeed, hheader, hmessage, Nat.add_assoc]
  · simp [hfeed]

end Message

/-! ## Rounds of the inner loop -/

/--
What a round of the inner loop can do with what is in front of the cursor: it
goes on behind a part that is not empty, or it leaves the loop.
-/
inductive LineMove (done rest : List UInt8) (fields : LogFields) :
    LineState ⊕ LineState → Prop
  | next (consumed left : List UInt8) (read : LogFields)
      (split : rest = consumed ++ left) (forward : consumed ≠ [])
      (reads : readFields rest fields = readFields left read) :
      LineMove done rest fields (.inl ⟨(done ++ consumed).length, read⟩)
  | leave (consumed left : List UInt8) (read : LogFields)
      (split : rest = consumed ++ left) (forward : rest ≠ [] → consumed ≠ [])
      (reads : readFields rest fields = (read, left)) :
      LineMove done rest fields (.inr ⟨(done ++ consumed).length, read⟩)

section Line

variable {done line rest : List UInt8} {fields : LogFields}

theorem LineMove.ended {read : LogFields}
    (reads : readFields rest fields = (read, [])) :
    LineMove done rest fields (.inr ⟨(done ++ rest).length, read⟩) :=
  .leave rest [] read (List.append_nil rest).symm id reads

theorem messageRound_moves
    (hlength : (done ++ (utf8 "MESSAGE".toList ++ lineFeed :: rest)).length <
      2 ^ 63) :
    ∃ moved,
      messageRound (done ++ (utf8 "MESSAGE".toList ++ lineFeed :: rest))
          ⟨(done ++ (utf8 "MESSAGE".toList ++ [lineFeed])).length, fields⟩ =
        .returned moved ∧
      LineMove done (utf8 "MESSAGE".toList ++ lineFeed :: rest) fields
        moved := by
  generalize hname : utf8 "MESSAGE".toList ++ [lineFeed] = name
  have hsplit : utf8 "MESSAGE".toList ++ lineFeed :: rest = name ++ rest := by
    simp [← hname]
  have hne : name ≠ [] := by simp [← hname]
  have hread := @readFields_message rest fields
  rw [hsplit] at hlength hread ⊢
  rw [← List.append_assoc] at hlength ⊢
  cases messageBytes rest with
  | short hshort =>
      refine ⟨_, messageRound_short hlength hshort, ?_⟩
      rw [readMessage, if_pos hshort] at hread
      rw [List.append_assoc]
      exact .ended hread
  | torn header payload hheader hpayload =>
      refine ⟨_, messageRound_torn hheader hpayload hlength, ?_⟩
      rw [readMessage_torn hheader hpayload] at hread
      rw [List.append_assoc done]
      exact .ended hread
  | whole header message byte left hheader hmessage =>
      refine ⟨_, messageRound_whole hheader hmessage hlength, ?_⟩
      rw [readMessage_append hheader hmessage] at hread
      by_cases hfeed : byte = lineFeed
      · rw [if_pos hfeed] at hread ⊢
        have hmove := @LineMove.next done _ fields
          (name ++ header ++ message ++ [byte]) left _ (by simp) (by simp) hread
        simpa only [List.append_assoc] using hmove
      · rw [if_neg hfeed] at hread ⊢
        rw [List.append_assoc done]
        exact .ended hread

theorem fieldRound_eq (hlength : line.length < 2 ^ 63) (state : LineState) :
    fieldRound line state =
      .returned (.inl { state with fields := state.fields.setLine line }) := by
  rw [fieldRound, position_eq, LogFields.setLine]
  cases hsplit : splitOnce equalsSign line with
  | none => rfl
  | some parts =>
      obtain ⟨name, value⟩ := parts
      obtain ⟨rfl, -⟩ := splitOnce_eq_some_iff.mp hsplit
      have hsum : sumOf name.length 1 = .returned (name.length + 1) := by
        refine sumOf_within ?_
        rw [List.length_append] at hlength
        unfold usizeLimit
        omega
      have hname : partOf (name ++ equalsSign :: value) 0 name.length =
          .returned name := by
        have hpart := @partOf_append [] name (equalsSign :: value)
        rwa [List.nil_append, List.length_nil, Nat.zero_add] at hpart
      have hvalue : partOf (name ++ equalsSign :: value) (name.length + 1)
          (name ++ equalsSign :: value).length = .returned value := by
        have hpart := @partOf_end (name ++ [equalsSign]) value
        have hfirst : (name ++ [equalsSign]).length = name.length + 1 := by
          simp
        rwa [hfirst, List.append_assoc] at hpart
      simp only [Option.map_some, hsum, hname, hvalue, Completion.bind_eq,
        Completion.bind_returned, Completion.pure_eq]

theorem lineRound_moves (hlength : (done ++ rest).length < 2 ^ 63) :
    ∃ moved,
      lineRound (done ++ rest) ⟨done.length, fields⟩ = .returned moved ∧
      LineMove done rest fields moved := by
  rw [lineRound]
  dsimp only
  rw [partOf_end, Completion.bind_eq, Completion.bind_returned, position_eq]
  cases hsplit : splitOnce lineFeed rest with
  | none =>
      exact ⟨_, rfl, .ended (readFields_end (splitOnce_eq_none_iff.mp hsplit))⟩
  | some parts =>
      obtain ⟨line, behind⟩ := parts
      obtain ⟨rfl, absent⟩ := splitOnce_eq_some_iff.mp hsplit
      have hlimit : done.length + (line.length + 1) < usizeLimit := by
        simp only [List.length_append, List.length_cons] at hlength
        unfold usizeLimit
        omega
      have hcursor : done.length + (line.length + 1) =
          (done ++ (line ++ [lineFeed])).length := by
        simp
      simp only [Option.map_some, sumOf_within (show done.length + line.length <
        usizeLimit by omega), sumOf_within (show line.length + 1 <
        usizeLimit by omega), sumOf_within hlimit, partOf_append,
        Completion.bind_eq, Completion.bind_returned, Completion.pure_eq]
      rw [hcursor]
      by_cases hempty : line = []
      · subst hempty
        rw [if_pos rfl]
        exact ⟨_, rfl, .leave [lineFeed] behind fields rfl (by simp)
          readFields_empty_line⟩
      rw [if_neg hempty]
      by_cases hmessage : line = utf8 "MESSAGE".toList
      · subst hmessage
        rw [if_pos rfl]
        exact messageRound_moves hlength
      rw [if_neg hmessage, fieldRound_eq]
      · refine ⟨_, rfl, .next (line ++ [lineFeed]) behind _ (by simp) (by simp)
          ?_⟩
        exact readFields_line absent hempty hmessage
      · simp only [List.length_append] at hlength
        omega

end Line

def LineState.read (bytes : List UInt8) (line : LineState) :
    LogFields × List UInt8 :=
  readFields (bytes.drop line.cursor) line.fields

/-- What a round of the inner loop does at any cursor within the bytes. -/
structure LineStep (bytes : List UInt8) (line : LineState) : Prop where
  forward :
    MovesForward LineState.cursor bytes.length (lineRound bytes) line
  next : ∀ next, lineRound bytes line = .returned (.inl next) →
    line.read bytes = next.read bytes
  leave : ∀ last, lineRound bytes line = .returned (.inr last) →
    line.read bytes = (last.fields, bytes.drop last.cursor)

section Loops

variable {bytes : List UInt8} {line start : LineState}

theorem lineStep (hlength : bytes.length < 2 ^ 63)
    (within : line.cursor ≤ bytes.length) : LineStep bytes line := by
  obtain ⟨cursor, fields⟩ := line
  have hsplit := List.take_append_drop cursor bytes
  have hcursor : (bytes.take cursor).length = cursor := by
    rw [List.length_take]
    exact min_eq_left within
  generalize bytes.take cursor = done at hsplit hcursor
  generalize bytes.drop cursor = rest at hsplit
  subst hsplit hcursor
  obtain ⟨moved, hround, hmove⟩ := @lineRound_moves done rest fields hlength
  have hread : LineState.read (done ++ rest) ⟨done.length, fields⟩ =
      readFields rest fields := by
    rw [LineState.read, List.drop_left]
  cases hmove with
  | next consumed left read split forward reads =>
      subst split
      have hforward := List.length_pos_iff.mpr forward
      refine ⟨.forward _ ?_ ?_ (.inl hround), ?_, ?_⟩
      · simpa only [List.length_append] using Nat.lt_add_of_pos_right hforward
      · simp
      · intro next hnext
        rw [hround] at hnext
        cases hnext
        rw [hread, reads, LineState.read, ← List.append_assoc, List.drop_left]
      · intro last hlast
        rw [hround] at hlast
        cases hlast
  | leave consumed left read split forward reads =>
      subst split
      refine ⟨?_, ?_, ?_⟩
      · by_cases hrest : consumed ++ left = []
        · obtain ⟨rfl, rfl⟩ := List.append_eq_nil_iff.mp hrest
          exact .ended _ (by simp) (by simp) hround
        · have hforward := List.length_pos_iff.mpr (forward hrest)
          refine .forward _ ?_ (by simp) (.inr hround)
          simpa only [List.length_append] using
            Nat.lt_add_of_pos_right hforward
      · intro next hnext
        rw [hround] at hnext
        cases hnext
      · intro last hlast
        rw [hround] at hlast
        cases hlast
        rw [hread, reads, ← List.append_assoc, List.drop_left]

theorem lines_step (hlength : bytes.length < 2 ^ 63)
    (within : start.cursor ≤ bytes.length)
    (visited : Visits (lineRound bytes) start line) :
    LineStep bytes line ∧ start.cursor ≤ line.cursor ∧
      start.read bytes = line.read bytes := by
  have hinvariant : line.cursor ≤ bytes.length ∧
      start.cursor ≤ line.cursor ∧ start.read bytes = line.read bytes := by
    refine @Visits.invariant _ _ _ _ (fun line =>
      line.cursor ≤ bytes.length ∧ start.cursor ≤ line.cursor ∧
        start.read bytes = line.read bytes) ⟨within, le_rfl, rfl⟩ ?_ visited
    rintro line next ⟨hwithin, hcursor, hread⟩ hround
    have hstep := lineStep hlength hwithin
    obtain ⟨hforward, hsize⟩ := hstep.forward.lt hround
    exact ⟨hsize, hcursor.trans hforward.le, hread.trans (hstep.next _ hround)⟩
  exact ⟨lineStep hlength hinvariant.1, hinvariant.2⟩

theorem lines_read {fuel : Nat} (hlength : bytes.length < 2 ^ 63)
    (within : start.cursor < bytes.length) (enough : bytes.length < fuel) :
    ∃ last, repeatRounds (lineRound bytes) fuel start = .returned last ∧
      start.cursor < last.cursor ∧ last.cursor ≤ bytes.length ∧
      start.read bytes = (last.fields, bytes.drop last.cursor) := by
  obtain ⟨line, last, hvisited, hlast, hloop⟩ :=
    @repeatRounds_of_movesForward _ _ start LineState.cursor bytes.length fuel
      (fun line visited => (lines_step hlength within.le visited).1.forward)
      (by omega)
  obtain ⟨hstep, hcursor, hread⟩ := lines_step hlength within.le hvisited
  obtain ⟨hsize, hlt | ⟨hend, hstays⟩⟩ := hstep.forward.lt_of_leaves hlast
  · exact ⟨last, hloop, hcursor.trans_lt hlt, hsize,
      hread.trans (hstep.leave last hlast)⟩
  · exact ⟨last, hloop, hstays ▸ within, hsize,
      hread.trans (hstep.leave last hlast)⟩

end Loops

/-! ## Rounds of the outer loop -/

section Records

variable {bytes : List UInt8} {executionId : String} {attempt fuel : Nat}
  {state : RecordState}

def RecordState.read (bytes : List UInt8) (executionId : String)
    (attempt : Nat) (state : RecordState) : List ReadLogsResponse :=
  state.records ++ decodeJournal (bytes.drop state.cursor) executionId attempt

theorem recordRound_end (h : bytes.length ≤ state.cursor) :
    recordRound fuel bytes executionId attempt state =
      .returned (.inr state) := by
  rw [recordRound, if_neg (not_lt.mpr h), Completion.pure_eq]

theorem recordRound_next (hlength : bytes.length < 2 ^ 63)
    (enough : bytes.length < fuel) (within : state.cursor < bytes.length) :
    ∃ next, recordRound fuel bytes executionId attempt state =
        .returned (.inl next) ∧
      state.cursor < next.cursor ∧ next.cursor ≤ bytes.length ∧
      state.read bytes executionId attempt =
        next.read bytes executionId attempt := by
  obtain ⟨last, hloop, hforward, hsize, hread⟩ :=
    @lines_read bytes ⟨state.cursor, .empty⟩ fuel hlength within enough
  refine ⟨⟨last.cursor, state.records ++
    (last.fields.record executionId attempt).toList⟩, ?_, hforward, hsize, ?_⟩
  · rw [recordRound, if_pos within, hloop, Completion.bind_eq,
      Completion.bind_returned]
    dsimp only
    rw [if_neg (ne_of_gt hforward), Completion.pure_eq]
  · have hne : bytes.drop state.cursor ≠ [] := by
      rw [Ne, List.drop_eq_nil_iff]
      omega
    have hmoved : ¬ (bytes.drop state.cursor).length ≤
        (bytes.drop last.cursor).length := by
      rw [List.length_drop, List.length_drop]
      dsimp only at hforward
      omega
    unfold RecordState.read
    dsimp only
    rw [decodeJournal, if_neg hne]
    change readFields (bytes.drop state.cursor) .empty = _ at hread
    rw [hread]
    dsimp only
    rw [if_neg hmoved, List.append_assoc]

theorem records_step (hlength : bytes.length < 2 ^ 63)
    (enough : bytes.length < fuel)
    (visited : Visits (recordRound fuel bytes executionId attempt) ⟨0, []⟩
      state) :
    MovesForward RecordState.cursor bytes.length
        (recordRound fuel bytes executionId attempt) state ∧
      state.cursor ≤ bytes.length ∧
      state.read bytes executionId attempt =
        decodeJournal bytes executionId attempt := by
  have hinvariant : state.cursor ≤ bytes.length ∧
      state.read bytes executionId attempt =
        decodeJournal bytes executionId attempt := by
    refine @Visits.invariant _ _ _ _ (fun state =>
      state.cursor ≤ bytes.length ∧ state.read bytes executionId attempt =
        decodeJournal bytes executionId attempt) ⟨Nat.zero_le _, rfl⟩ ?_ visited
    rintro state next ⟨hwithin, hread⟩ hround
    rcases hwithin.lt_or_eq with hlt | hend
    · obtain ⟨after, hafter, -, hsize, hstep⟩ :=
        @recordRound_next bytes executionId attempt fuel _ hlength enough hlt
      rw [hround] at hafter
      cases hafter
      exact ⟨hsize, hstep.symm.trans hread⟩
    · rw [recordRound_end hend.ge] at hround
      cases hround
  refine ⟨?_, hinvariant⟩
  rcases hinvariant.1.lt_or_eq with hlt | hend
  · obtain ⟨after, hafter, hforward, hsize, -⟩ :=
      @recordRound_next bytes executionId attempt fuel _ hlength enough hlt
    exact .forward after hforward hsize (.inl hafter)
  · exact .ended state hend hend (recordRound_end hend.ge)

theorem decodeJournalChecked_eq (hlength : bytes.length < 2 ^ 63)
    (enough : bytes.length < fuel) :
    decodeJournalChecked fuel bytes executionId attempt =
      .returned (decodeJournal bytes executionId attempt) := by
  obtain ⟨state, last, hvisited, hlast, hloop⟩ :=
    @repeatRounds_of_movesForward _
      (recordRound fuel bytes executionId attempt) ⟨0, []⟩ RecordState.cursor
      bytes.length fuel
      (fun state visited => (records_step hlength enough visited).1)
      (by omega)
  obtain ⟨-, hwithin, hread⟩ := records_step hlength enough hvisited
  rcases hwithin.lt_or_eq with hlt | hend
  · obtain ⟨after, hafter, -⟩ :=
      @recordRound_next bytes executionId attempt fuel _ hlength enough hlt
    rw [hlast] at hafter
    cases hafter
  · rw [recordRound_end hend.ge] at hlast
    cases hlast
    rw [RecordState.read, hend, List.drop_length, decodeJournal_nil,
      List.append_nil] at hread
    rw [decodeJournalChecked, hloop, Completion.bind_eq,
      Completion.bind_returned, hread, Completion.pure_eq]

end Records

/-! ## Messages are parts of the bytes -/

section Infix

variable {bytes message rest : List UInt8} {fields last : LogFields}

theorem readMessage_part {behind : Option (List UInt8)}
    (h : readMessage bytes = some (message, behind)) :
    message <:+: bytes ∧ ∀ rest, behind = some rest → rest <:+ bytes := by
  cases messageBytes bytes with
  | short hshort =>
      rw [readMessage, if_pos hshort] at h
      cases h
  | torn header payload hheader hpayload =>
      rw [readMessage_torn hheader hpayload] at h
      cases h
  | whole header message byte left hheader hmessage =>
      rw [readMessage_append hheader hmessage] at h
      cases h
      refine ⟨⟨header, byte :: left, by simp⟩, fun rest hrest => ?_⟩
      split at hrest
      · cases hrest
        exact ⟨header ++ message ++ [byte], by simp⟩
      · cases hrest

theorem LogFields.message_setLine (fields : LogFields) (line : List UInt8) :
    (fields.setLine line).message = fields.message := by
  unfold LogFields.setLine
  split
  · exact LogFields.message_set _ _
  · rfl

theorem readFields_part (h : readFields bytes fields = (last, rest)) :
    rest <:+ bytes ∧ ∀ message, last.message = some message →
      fields.message = some message ∨ message <:+: bytes := by
  fun_induction readFields bytes fields with
  | case1 bytes fields hsplit =>
      cases h
      exact ⟨List.nil_suffix, fun message => .inl⟩
  | case2 bytes fields behind hsplit =>
      cases h
      exact ⟨suffix_of_splitOnce hsplit, fun message => .inl⟩
  | case3 bytes fields behind hmessage hsplit =>
      cases h
      exact ⟨List.nil_suffix, fun message => .inl⟩
  | case4 bytes fields behind text hmessage hsplit =>
      cases h
      have hpart := (readMessage_part hmessage).1
      refine ⟨List.nil_suffix, fun message hlast => .inr ?_⟩
      cases hlast
      exact hpart.trans (suffix_of_splitOnce hsplit).isInfix
  | case5 bytes fields behind text left hmessage hsplit hname ih =>
      obtain ⟨hpart, hleft⟩ := readMessage_part hmessage
      have hbehind := suffix_of_splitOnce hsplit
      have hsuffix := (hleft left rfl).trans hbehind
      obtain ⟨hrest, hlast⟩ := ih h
      refine ⟨hrest.trans hsuffix, fun message heq => .inr ?_⟩
      rcases hlast message heq with htext | hwhole
      · cases htext
        exact hpart.trans hbehind.isInfix
      · exact hwhole.trans hsuffix.isInfix
  | case6 bytes fields line behind hsplit hempty hname ih =>
      have hbehind := suffix_of_splitOnce hsplit
      obtain ⟨hrest, hlast⟩ := ih h
      refine ⟨hrest.trans hbehind, fun message heq => ?_⟩
      rcases hlast message heq with hbefore | hwhole
      · rw [LogFields.message_setLine] at hbefore
        exact .inl hbefore
      · exact .inr (hwhole.trans hbehind.isInfix)

theorem decodeJournal_part {executionId : String} {attempt : Nat}
    {record : ReadLogsResponse}
    (h : record ∈ decodeJournal bytes executionId attempt) :
    record.message <:+: bytes := by
  fun_induction decodeJournal bytes executionId attempt with
  | case1 => cases h
  | case2 bytes hne fields left hread hstays => cases h
  | case3 bytes hne fields left hread hmoves ih =>
      obtain ⟨hleft, hmessage⟩ := readFields_part hread
      rcases List.mem_append.mp h with hfirst | hlater
      · rw [Option.mem_toList, LogFields.record, Option.map_eq_some_iff]
          at hfirst
        obtain ⟨message, hfields, rfl⟩ := hfirst
        rcases hmessage message hfields with habsent | hwhole
        · cases habsent
        · exact hwhole
      · exact (ih hlater).trans hleft.isInfix

end Infix

/--
The decoder is total.  Whatever the bytes are, every round of both loops ends
without a panic and moves the cursor forward within the bytes until it is at
the end, so that the decoder returns within one round more than there are
bytes, and the message of each record that it returns is a part of the bytes.
-/
theorem decodeJournal_total (slice : LogSlice) (executionId : String)
    (attempt : Nat) :
    (∀ fuel, slice.bytes.length < fuel →
      decodeJournalChecked fuel slice.bytes executionId attempt =
        .returned (decodeJournal slice.bytes executionId attempt) ∧
      ∀ state,
        Visits (recordRound fuel slice.bytes executionId attempt) ⟨0, []⟩
          state →
        MovesForward RecordState.cursor slice.bytes.length
          (recordRound fuel slice.bytes executionId attempt) state ∧
        ∀ line,
          Visits (lineRound slice.bytes) ⟨state.cursor, .empty⟩ line →
          MovesForward LineState.cursor slice.bytes.length
            (lineRound slice.bytes) line) ∧
    ∀ record ∈ decodeJournal slice.bytes executionId attempt,
      record.message <:+: slice.bytes := by
  refine ⟨fun fuel enough => ⟨?_, ?_⟩, fun record => decodeJournal_part⟩
  · exact decodeJournalChecked_eq slice.length_lt enough
  · intro state hvisited
    obtain ⟨hforward, hwithin, -⟩ :=
      records_step slice.length_lt enough hvisited
    refine ⟨hforward, fun line hline => ?_⟩
    have hstep := @lines_step slice.bytes line ⟨state.cursor, .empty⟩
      slice.length_lt hwithin hline
    exact hstep.1.forward

/-- A message without an end whose length is the largest there is. -/
def endlessSlice : LogSlice where
  bytes := utf8 "SUSM_STREAM=stdout\nMESSAGE\n".toList ++ leBytes 8 (2 ^ 64 - 1)
  length_lt := by decide

theorem decodeJournal_total_endless :
    decodeJournal endlessSlice.bytes "execution" 1 = [] := by
  have hreturned := ((decodeJournal_total endlessSlice "execution" 1).1 40
    (by decide)).1
  have hrun : decodeJournalChecked 40 endlessSlice.bytes "execution" 1 =
      .returned [] := by decide +kernel
  exact Completion.returned.inj (hreturned.symm.trans hrun)

end Susm.Controller

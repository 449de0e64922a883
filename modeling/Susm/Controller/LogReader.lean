import Susm.Foundation.Framing
import Susm.Foundation.Splitting
import Susm.Supervisor.AttemptWorld
import Susm.Supervisor.LogEntry

/-!
# Reading log segments

`decode_journal` reads the records of a segment one after another.  The cursor
of the source is here what is left behind it.  A segment that was cut off
anywhere gives the records in front of the cut.
-/

namespace Susm.Controller

open Susm.Foundation
open Susm.Foundation.Framing
open Susm.Protocol
open Susm.Supervisor

structure ReadLogsResponse where
  executionId : String
  attempt : Nat
  stream : String
  sequence : Nat
  timestampUnixMs : Int
  message : List UInt8
  gap : String
  deriving DecidableEq, Repr

/-- The fields of a record that have been read. -/
structure LogFields where
  stream : String
  sequence : Nat
  timestamp : Int
  message : Option (List UInt8)
  deriving DecidableEq, Repr

namespace LogFields

def empty : LogFields := ⟨"", 0, 0, none⟩

def set (fields : LogFields) (name : List UInt8) (value : List Char) :
    LogFields :=
  if name = utf8 "SUSM_STREAM".toList then
    { fields with stream := String.ofList value }
  else if name = utf8 "SUSM_SEQUENCE".toList then
    { fields with sequence := (Decimal.parse (2 ^ 64) value).getD 0 }
  else if name = utf8 "SUSM_TIMESTAMP_UNIX_MS".toList then
    { fields with timestamp := (Decimal.parseInt (2 ^ 63) value).getD 0 }
  else fields

def setLine (fields : LogFields) (line : List UInt8) : LogFields :=
  match splitOnce equalsSign line with
  | some (name, value) => fields.set name (fromUtf8Lossy value)
  | none => fields

end LogFields

/-- The message behind its line, and what is left behind the line feed that
ends it.  No slice is so long that the sums would saturate. -/
def readMessage (bytes : List UInt8) :
    Option (List UInt8 × Option (List UInt8)) :=
  if bytes.length < 8 then none
  else
    let length := ofLeBytes (bytes.take 8)
    let payload := bytes.drop 8
    match payload.drop length with
    | [] => none
    | byte :: rest =>
        some (payload.take length,
          if byte = lineFeed then some rest else none)

theorem length_lt_of_readMessage {bytes message rest : List UInt8}
    (h : readMessage bytes = some (message, some rest)) :
    rest.length < bytes.length := by
  unfold readMessage at h
  split at h
  · cases h
  dsimp only at h
  generalize ofLeBytes (bytes.take 8) = length at h
  cases hrest : (bytes.drop 8).drop length with
  | nil => simp [hrest] at h
  | cons byte behind =>
      have hlength := congrArg List.length hrest
      simp only [hrest, Option.some.injEq, Prod.mk.injEq] at h
      obtain ⟨-, h⟩ := h
      split at h
      · cases h
        rw [List.length_drop, List.length_drop, List.length_cons] at hlength
        omega
      · cases h

/-- The lines of one record up to an empty line, and what is left. -/
def readFields (bytes : List UInt8) (fields : LogFields) :
    LogFields × List UInt8 :=
  match _h : splitOnce lineFeed bytes with
  | none => (fields, [])
  | some (line, rest) =>
      if line = [] then (fields, rest)
      else if line = utf8 "MESSAGE".toList then
        match _hmessage : readMessage rest with
        | none => (fields, [])
        | some (message, none) => ({ fields with message := message }, [])
        | some (message, some rest) =>
            readFields rest { fields with message := message }
      else readFields rest (fields.setLine line)
termination_by bytes.length
decreasing_by
  · have := length_lt_of_splitOnce _h
    have := length_lt_of_readMessage _hmessage
    omega
  · exact length_lt_of_splitOnce _h

def LogFields.record (fields : LogFields) (executionId : String)
    (attempt : Nat) : Option ReadLogsResponse :=
  fields.message.map fun message =>
    { executionId := executionId
      attempt := attempt
      stream := fields.stream
      sequence := fields.sequence
      timestampUnixMs := fields.timestamp
      message := message
      gap := "" }

def decodeJournal (bytes : List UInt8) (executionId : String)
    (attempt : Nat) : List ReadLogsResponse :=
  if bytes = [] then []
  else
    let (fields, rest) := readFields bytes .empty
    -- the cursor has not moved
    if bytes.length ≤ rest.length then []
    else
      (fields.record executionId attempt).toList ++
        decodeJournal rest executionId attempt
termination_by bytes.length

theorem decodeJournal_nil (executionId : String) (attempt : Nat) :
    decodeJournal [] executionId attempt = [] := by
  rw [decodeJournal, if_pos rfl]

/-! ## Lines -/

section Lines

variable {line rest tail : List UInt8} {fields final : LogFields}

theorem readFields_line (absent : lineFeed ∉ line) (hne : line ≠ [])
    (hother : line ≠ utf8 "MESSAGE".toList) :
    readFields (line ++ lineFeed :: rest) fields =
      readFields rest (fields.setLine line) := by
  rw [readFields]
  split
  · rename_i hsplit
    rw [splitOnce_append absent] at hsplit
    cases hsplit
  · rename_i hsplit
    rw [splitOnce_append absent] at hsplit
    cases hsplit
    rw [if_neg hne, if_neg hother]

theorem readFields_end (absent : lineFeed ∉ tail) :
    readFields tail fields = (fields, []) := by
  rw [readFields]
  split
  · rfl
  · rename_i hsplit
    rw [splitOnce_eq_none_iff.mpr absent] at hsplit
    cases hsplit

theorem readFields_empty_line :
    readFields (lineFeed :: rest) fields = (fields, rest) := by
  rw [readFields]
  split
  · rename_i hsplit
    simp [splitOnce] at hsplit
  · rename_i hsplit
    simp only [splitOnce, if_true, Option.some.injEq, Prod.mk.injEq] at hsplit
    obtain ⟨rfl, rfl⟩ := hsplit
    rw [if_pos rfl]

theorem lineFeed_not_mem {text : List Char} (absent : '\n' ∉ text) :
    lineFeed ∉ utf8 text :=
  not_mem_utf8 (by decide) absent

theorem equalsSign_not_mem {text : List Char} (absent : '=' ∉ text) :
    equalsSign ∉ utf8 text :=
  not_mem_utf8 (by decide) absent

structure IsField (field : String × List Char) : Prop where
  name_line : '\n' ∉ field.1.toList
  name : '=' ∉ field.1.toList
  value_line : '\n' ∉ field.2

def fieldLine (field : String × List Char) : List UInt8 :=
  utf8 field.1.toList ++ equalsSign :: utf8 field.2

def LogFields.setField (fields : LogFields) (field : String × List Char) :
    LogFields :=
  fields.set (utf8 field.1.toList) (fromUtf8Lossy (utf8 field.2))

theorem scalar_eq (field : String × List Char) :
    scalar field.1 field.2 ++ rest = fieldLine field ++ lineFeed :: rest := by
  simp [scalar, fieldLine]

theorem IsField.absent {field : String × List Char} (h : IsField field) :
    lineFeed ∉ fieldLine field := by
  intro hmem
  rcases List.mem_append.mp hmem with hmem | hmem
  · exact lineFeed_not_mem h.name_line hmem
  · rcases List.mem_cons.mp hmem with heq | hmem
    · exact absurd heq (by decide)
    · exact lineFeed_not_mem h.value_line hmem

theorem readFields_scalar {field : String × List Char} (h : IsField field) :
    readFields (scalar field.1 field.2 ++ rest) fields =
      readFields rest (fields.setField field) := by
  have hequals : equalsSign ∈ fieldLine field := by simp [fieldLine]
  have hset : fields.setLine (fieldLine field) = fields.setField field := by
    rw [LogFields.setLine, fieldLine,
      splitOnce_append (equalsSign_not_mem h.name)]
    rfl
  rw [scalar_eq, readFields_line h.absent, hset]
  · exact List.ne_nil_of_mem hequals
  · intro heq
    rw [heq] at hequals
    exact absurd hequals (by decide)

@[simp] theorem LogFields.message_set (name : List UInt8)
    (value : List Char) : (fields.set name value).message = fields.message := by
  unfold LogFields.set
  split_ifs <;> rfl

/-! ## Lines that are cut off -/

/-- Reading stops at the end, with no message or with all the fields. -/
def ReadCut (tail : List UInt8) (fields final : LogFields) : Prop :=
  ∃ last, readFields tail fields = (last, []) ∧
    (last.message = none ∨ last = final)

theorem ReadCut.of_absent (unread : fields.message = none)
    (absent : lineFeed ∉ tail) : ReadCut tail fields final :=
  ⟨fields, readFields_end absent, .inl unread⟩

theorem ReadCut.scalar {field : String × List Char} (h : IsField field)
    (unread : fields.message = none)
    (hcut : tail <+: scalar field.1 field.2 ++ rest)
    (hne : tail ≠ scalar field.1 field.2 ++ rest)
    (behind : ∀ cut, cut <+: rest → cut ≠ rest →
      ReadCut cut (fields.setField field) final) :
    ReadCut tail fields final := by
  rw [scalar_eq] at hcut hne
  rcases prefix_cases hcut with hline | ⟨cut, rfl, hrest⟩
  · exact .of_absent unread fun hmem => h.absent (hline.subset hmem)
  · obtain ⟨last, hread, hlast⟩ := behind cut hrest fun heq => hne (by rw [heq])
    exact ⟨last, by rw [← scalar_eq, readFields_scalar h, hread], hlast⟩

end Lines

/-! ## Messages -/

section Message

variable {bytes rest tail : List UInt8} {fields : LogFields}

theorem readMessage_whole (hlength : bytes.length < 2 ^ 63) :
    readMessage (leBytes 8 bytes.length ++ bytes ++ lineFeed :: rest) =
      some (bytes, some rest) := by
  have hvalue : ofLeBytes (leBytes 8 bytes.length) = bytes.length :=
    ofLeBytes_leBytes_of_lt (by omega)
  have htake : (leBytes 8 bytes.length ++ bytes ++ lineFeed :: rest).take 8 =
      leBytes 8 bytes.length := by
    rw [List.append_assoc, List.take_left' (length_leBytes 8 _)]
  have hdrop : (leBytes 8 bytes.length ++ bytes ++ lineFeed :: rest).drop 8 =
      bytes ++ lineFeed :: rest := by
    rw [List.append_assoc, List.drop_left' (length_leBytes 8 _)]
  have hlong : ¬ (leBytes 8 bytes.length ++ bytes ++
      lineFeed :: rest).length < 8 := by simp
  rw [readMessage, if_neg hlong]
  dsimp only
  rw [htake, hdrop, hvalue, List.drop_left, List.take_left]
  simp

theorem readMessage_short (hlength : bytes.length < 2 ^ 63)
    (hcut : tail <+: leBytes 8 bytes.length ++ bytes) :
    readMessage tail = none := by
  rw [readMessage]
  split
  · rfl
  · rename_i hlong
    obtain ⟨payload, rfl⟩ : leBytes 8 bytes.length <+: tail :=
      List.prefix_of_prefix_length_le (List.prefix_append _ _) hcut (by
        rw [length_leBytes]
        omega)
    have hvalue : ofLeBytes (leBytes 8 bytes.length) = bytes.length :=
      ofLeBytes_leBytes_of_lt (by omega)
    have hpayload := ((List.prefix_append_right_inj _).mp hcut).length_le
    dsimp only
    rw [List.take_left' (length_leBytes 8 _),
      List.drop_left' (length_leBytes 8 _), hvalue,
      List.drop_eq_nil_of_le hpayload]

theorem readMessage_cut (hlength : bytes.length < 2 ^ 63)
    (hcut : tail <+: leBytes 8 bytes.length ++ bytes ++ [lineFeed, lineFeed])
    (hne : tail ≠ leBytes 8 bytes.length ++ bytes ++ [lineFeed, lineFeed]) :
    readMessage tail = none ∨ readMessage tail = some (bytes, some []) := by
  rw [show leBytes 8 bytes.length ++ bytes ++ [lineFeed, lineFeed] =
    leBytes 8 bytes.length ++ bytes ++ [lineFeed] ++ [lineFeed] by simp]
    at hcut hne
  rcases List.prefix_concat_iff.mp hcut with heq | hcut
  · exact absurd heq hne
  rcases List.prefix_concat_iff.mp hcut with rfl | hcut
  · exact .inr (readMessage_whole hlength)
  · exact .inl (readMessage_short hlength hcut)

theorem readFields_message :
    readFields (utf8 "MESSAGE".toList ++ lineFeed :: rest) fields =
      match readMessage rest with
      | none => (fields, [])
      | some (message, none) => ({ fields with message := message }, [])
      | some (message, some rest) =>
          readFields rest { fields with message := message } := by
  have absent : lineFeed ∉ utf8 "MESSAGE".toList := by decide
  rw [readFields]
  split
  · rename_i hsplit
    rw [splitOnce_append absent] at hsplit
    cases hsplit
  · rename_i hsplit
    rw [splitOnce_append absent] at hsplit
    cases hsplit
    rw [if_neg (by decide), if_pos rfl]
    split <;> rename_i hmessage <;> rw [hmessage]

theorem messageField_eq :
    messageField bytes ++ [lineFeed] =
      utf8 "MESSAGE".toList ++ lineFeed ::
        (leBytes 8 bytes.length ++ bytes ++ [lineFeed, lineFeed]) := by
  simp [messageField]

theorem readFields_messageField (hlength : bytes.length < 2 ^ 63) :
    readFields (messageField bytes ++ [lineFeed] ++ rest) fields =
      ({ fields with message := bytes }, rest) := by
  have hbytes : messageField bytes ++ [lineFeed] ++ rest =
      utf8 "MESSAGE".toList ++ lineFeed ::
        (leBytes 8 bytes.length ++ bytes ++ lineFeed :: lineFeed :: rest) := by
    simp [messageField]
  rw [hbytes, readFields_message, readMessage_whole hlength]
  exact readFields_empty_line

theorem ReadCut.message (hlength : bytes.length < 2 ^ 63)
    (unread : fields.message = none)
    (hcut : tail <+: messageField bytes ++ [lineFeed])
    (hne : tail ≠ messageField bytes ++ [lineFeed]) :
    ReadCut tail fields { fields with message := bytes } := by
  rw [messageField_eq] at hcut hne
  rcases prefix_cases hcut with hline | ⟨cut, rfl, hrest⟩
  · exact .of_absent unread fun hmem =>
      absurd (hline.subset hmem) (by decide)
  · have hpart := readMessage_cut hlength hrest fun heq => hne (by rw [heq])
    unfold ReadCut
    rw [readFields_message]
    rcases hpart with hnone | hsome
    · exact ⟨fields, by rw [hnone], .inl unread⟩
    · refine ⟨_, ?_, .inr rfl⟩
      rw [hsome]
      exact readFields_end (by simp)

end Message

/-! ## Records -/

/-- The fields of an entry in front of its message. -/
def header (configuration : ExecutionConfiguration) (chunk : OutputChunk) :
    List (String × List Char) :=
  [("SUSM_FORMAT", "1".toList),
    ("SUSM_RECORD", "output".toList),
    ("SUSM_TIMESTAMP_UNIX_MS", Decimal.writeInt chunk.timestampUnixMs),
    ("SUSM_WORKLOAD", configuration.workloadId.toList),
    ("SUSM_EXECUTION", configuration.executionId.toList),
    ("SUSM_ATTEMPT", Decimal.write configuration.attempt),
    ("SUSM_SEQUENCE", Decimal.write chunk.sequence),
    ("SUSM_STREAM", chunk.stream.name.toList)]

def headerBytes (fields : List (String × List Char)) : List UInt8 :=
  fields.flatMap fun field => scalar field.1 field.2

theorem encodeEntry_eq (configuration : ExecutionConfiguration)
    (chunk : OutputChunk) :
    encodeEntry configuration chunk =
      headerBytes (header configuration chunk) ++
        (messageField chunk.bytes ++ [lineFeed]) := by
  simp [encodeEntry, header, headerBytes]

section Header

variable {list : List (String × List Char)} {rest tail : List UInt8}
  {fields final : LogFields}

theorem readFields_header (h : ∀ field ∈ list, IsField field) :
    readFields (headerBytes list ++ rest) fields =
      readFields rest (list.foldl LogFields.setField fields) := by
  induction list generalizing fields with
  | nil => rfl
  | cons field list ih =>
      rw [headerBytes, List.flatMap_cons, List.append_assoc,
        readFields_scalar (h field List.mem_cons_self)]
      exact ih fun other hmem => h other (List.mem_cons_of_mem field hmem)

theorem ReadCut.header (h : ∀ field ∈ list, IsField field)
    (unread : fields.message = none)
    (hcut : tail <+: headerBytes list ++ rest)
    (hne : tail ≠ headerBytes list ++ rest)
    (behind : ∀ cut, cut <+: rest → cut ≠ rest →
      ReadCut cut (list.foldl LogFields.setField fields) final) :
    ReadCut tail fields final := by
  induction list generalizing fields tail with
  | nil => exact behind tail hcut hne
  | cons field list ih =>
      rw [headerBytes, List.flatMap_cons, List.append_assoc] at hcut hne
      refine ReadCut.scalar (h field List.mem_cons_self) unread hcut hne ?_
      intro cut hstart hshort
      refine ih ?_ ?_ hstart hshort behind
      · exact fun other hmem => h other (List.mem_cons_of_mem field hmem)
      · simpa [LogFields.setField] using unread

end Header

def logRecord (executionId : String) (attempt : Nat) (chunk : OutputChunk) :
    ReadLogsResponse where
  executionId := executionId
  attempt := attempt
  stream := chunk.stream.name
  sequence := chunk.sequence
  timestampUnixMs := chunk.timestampUnixMs
  message := chunk.bytes
  gap := ""

def entryFields (chunk : OutputChunk) : LogFields where
  stream := chunk.stream.name
  sequence := chunk.sequence
  timestamp := chunk.timestampUnixMs
  message := none

section Entry

variable {configuration : ExecutionConfiguration} {chunk : OutputChunk}
  {executionId : String} {attempt : Nat} {rest tail : List UInt8}

theorem writeInt_line (value : Int) : '\n' ∉ Decimal.writeInt value := by
  intro hmem
  rcases Decimal.mem_writeInt hmem with h | h <;> exact absurd h (by decide)

theorem write_line (value : Nat) : '\n' ∉ Decimal.write value :=
  fun hmem => absurd (Decimal.isDigit_of_mem_write hmem) (by decide)

theorem writeInt_ascii (value : Int) :
    ∀ character ∈ Decimal.writeInt value, character.toNat < 0x80 := by
  intro character hmem
  rcases Decimal.mem_writeInt hmem with rfl | h
  · decide
  · exact Decimal.toNat_lt_of_isDigit h

theorem header_isField (hworkload : '\n' ∉ configuration.workloadId.toList)
    (hexecution : '\n' ∉ configuration.executionId.toList) :
    ∀ field ∈ header configuration chunk, IsField field := by
  intro field hmem
  simp only [header, List.mem_cons, List.not_mem_nil, or_false] at hmem
  rcases hmem with rfl | rfl | rfl | rfl | rfl | rfl | rfl | rfl <;>
    refine ⟨by dsimp only; decide, by dsimp only; decide, ?_⟩
  · decide
  · decide
  · exact writeInt_line _
  · exact hworkload
  · exact hexecution
  · exact write_line _
  · exact write_line _
  · cases chunk.stream <;> decide

theorem setField_other {fields : LogFields} {name : String}
    {value : List Char}
    (hname : name ∈ ["SUSM_FORMAT", "SUSM_RECORD", "SUSM_WORKLOAD",
      "SUSM_EXECUTION", "SUSM_ATTEMPT"]) :
    fields.setField (name, value) = fields := by
  simp only [List.mem_cons, List.not_mem_nil, or_false] at hname
  rcases hname with rfl | rfl | rfl | rfl | rfl <;>
    rw [LogFields.setField, LogFields.set, if_neg (by dsimp only; decide),
      if_neg (by dsimp only; decide), if_neg (by dsimp only; decide)]

theorem setField_timestamp {fields : LogFields} :
    fields.setField ("SUSM_TIMESTAMP_UNIX_MS",
      Decimal.writeInt chunk.timestampUnixMs) =
      { fields with timestamp := chunk.timestampUnixMs } := by
  rw [LogFields.setField, LogFields.set, if_neg (by dsimp only; decide),
    if_neg (by dsimp only; decide), if_pos rfl,
    fromUtf8Lossy_ascii (writeInt_ascii _), Decimal.parseInt_writeInt,
    Option.getD_some]
  · exact_mod_cast chunk.timestamp_lower
  · exact_mod_cast chunk.timestamp_upper

theorem setField_sequence {fields : LogFields} :
    fields.setField ("SUSM_SEQUENCE", Decimal.write chunk.sequence) =
      { fields with sequence := chunk.sequence } := by
  rw [LogFields.setField, LogFields.set, if_neg (by dsimp only; decide),
    if_pos rfl, fromUtf8Lossy_ascii fun _ hmem =>
      Decimal.toNat_lt_of_isDigit (Decimal.isDigit_of_mem_write hmem),
    Decimal.parse_write chunk.sequence_lt, Option.getD_some]

theorem setField_stream {fields : LogFields} :
    fields.setField ("SUSM_STREAM", chunk.stream.name.toList) =
      { fields with stream := chunk.stream.name } := by
  have hall : (chunk.stream.name.toList.all fun character =>
      character.toNat < 0x80) = true := by
    cases chunk.stream <;> rfl
  have hascii : ∀ character ∈ chunk.stream.name.toList,
      character.toNat < 0x80 := by
    intro character hmem
    simpa using List.all_eq_true.mp hall character hmem
  rw [LogFields.setField, LogFields.set, if_pos rfl,
    fromUtf8Lossy_ascii hascii, String.ofList_toList]

theorem header_fields :
    (header configuration chunk).foldl LogFields.setField .empty =
      entryFields chunk := by
  simp only [header, List.foldl_cons, List.foldl_nil]
  rw [setField_stream, setField_sequence, setField_other (by decide),
    setField_other (by decide), setField_other (by decide),
    setField_timestamp, setField_other (by decide),
    setField_other (by decide)]
  rfl

variable (hworkload : '\n' ∉ configuration.workloadId.toList)
  (hexecution : '\n' ∉ configuration.executionId.toList)
include hworkload hexecution

theorem readFields_entry :
    readFields (encodeEntry configuration chunk ++ rest) .empty =
      ({ entryFields chunk with message := chunk.bytes }, rest) := by
  rw [encodeEntry_eq, List.append_assoc,
    readFields_header (header_isField hworkload hexecution), header_fields,
    readFields_messageField chunk.length_lt]

theorem readFields_torn (hcut : tail <+: encodeEntry configuration chunk)
    (hne : tail ≠ encodeEntry configuration chunk) :
    ReadCut tail .empty
      { entryFields chunk with message := chunk.bytes } := by
  rw [encodeEntry_eq] at hcut hne
  refine .header (header_isField hworkload hexecution) rfl hcut hne ?_
  intro cut hstart hshort
  rw [header_fields]
  exact .message chunk.length_lt rfl hstart hshort

theorem decodeJournal_entry :
    decodeJournal (encodeEntry configuration chunk ++ rest) executionId
        attempt =
      logRecord executionId attempt chunk ::
        decodeJournal rest executionId attempt := by
  have hlonger : rest.length <
      (encodeEntry configuration chunk ++ rest).length := by
    simp [encodeEntry_eq]
    omega
  have hne : encodeEntry configuration chunk ++ rest ≠ [] := by
    rw [← List.length_pos_iff]
    omega
  rw [decodeJournal, if_neg hne, readFields_entry hworkload hexecution]
  dsimp only
  rw [if_neg (by omega)]
  rfl

theorem decodeJournal_torn (hcut : tail <+: encodeEntry configuration chunk)
    (hne : tail ≠ encodeEntry configuration chunk) :
    decodeJournal tail executionId attempt = [] ∨
      decodeJournal tail executionId attempt =
        [logRecord executionId attempt chunk] := by
  obtain ⟨last, hread, hlast⟩ :=
    readFields_torn hworkload hexecution hcut hne
  by_cases hempty : tail = []
  · exact .inl (by rw [hempty, decodeJournal_nil])
  have hlength := List.length_pos_iff.mpr hempty
  rw [decodeJournal, if_neg hempty, hread]
  dsimp only
  rw [List.length_nil, if_neg (by omega), decodeJournal_nil,
    List.append_nil]
  rcases hlast with hnone | rfl
  · exact .inl (by simp [LogFields.record, hnone])
  · exact .inr rfl

theorem decodeJournal_entries {chunks : List OutputChunk} :
    decodeJournal (chunks.flatMap (encodeEntry configuration) ++ rest)
        executionId attempt =
      chunks.map (logRecord executionId attempt) ++
        decodeJournal rest executionId attempt := by
  induction chunks with
  | nil => rfl
  | cons chunk chunks ih =>
      rw [List.flatMap_cons, List.append_assoc,
        decodeJournal_entry hworkload hexecution, ih]
      rfl

theorem decodeJournal_whole (chunks : List OutputChunk) :
    decodeJournal (chunks.flatMap (encodeEntry configuration)) executionId
        attempt = chunks.map (logRecord executionId attempt) := by
  rw [← List.append_nil (chunks.flatMap _),
    decodeJournal_entries hworkload hexecution, decodeJournal_nil,
    List.append_nil]

/-- A segment that is cut off: the records in front of the cut, and the next
one if only its last line feed is behind the cut. -/
theorem decodeJournal_take (chunks : List OutputChunk) (size : Nat) :
    ∃ count, (within (encodeEntry configuration) size chunks).length ≤ count ∧
      decodeJournal
          ((chunks.flatMap (encodeEntry configuration)).take size)
          executionId attempt =
        (chunks.take count).map (logRecord executionId attempt) := by
  obtain ⟨tail, hbytes, torn⟩ :=
    take_flatMap (encodeEntry configuration) size chunks
  have hwithin := List.prefix_iff_eq_take.mp
    (within_start (encodeEntry configuration) size chunks)
  rw [hbytes, decodeJournal_entries hworkload hexecution]
  have hnone : decodeJournal tail executionId attempt = [] →
      ∃ count, (within (encodeEntry configuration) size chunks).length ≤
          count ∧
        (within (encodeEntry configuration) size chunks).map
            (logRecord executionId attempt) ++
            decodeJournal tail executionId attempt =
          (chunks.take count).map (logRecord executionId attempt) := by
    intro hempty
    exact ⟨_, le_rfl, by rw [hempty, List.append_nil, ← hwithin]⟩
  rcases torn with rfl | ⟨chunk, hnext, hcut, hne⟩
  · exact hnone (decodeJournal_nil executionId attempt)
  rcases decodeJournal_torn hworkload hexecution hcut hne with hempty | hmore
  · exact hnone hempty
  · refine ⟨_, Nat.le_succ _, ?_⟩
    have htake := List.prefix_iff_eq_take.mp hnext
    rw [List.length_append, List.length_singleton] at htake
    rw [hmore, ← htake, List.map_append]
    rfl

end Entry

/--
The reader undoes the writer: all chunks are read back, and from a segment cut
off anywhere a prefix of them with every chunk whose entry is whole.
-/
theorem decodeJournal_encoded {configuration : ExecutionConfiguration}
    (hworkload : '\n' ∉ configuration.workloadId.toList)
    (hexecution : '\n' ∉ configuration.executionId.toList)
    (executionId : String) (attempt : Nat) (chunks : List OutputChunk) :
    decodeJournal (chunks.flatMap (encodeEntry configuration)) executionId
        attempt = chunks.map (logRecord executionId attempt) ∧
      ∀ size, ∃ count,
        decodeJournal
            ((chunks.flatMap (encodeEntry configuration)).take size)
            executionId attempt =
          (chunks.take count).map (logRecord executionId attempt) ∧
        ∀ whole, whole ≤ chunks.length →
          ((chunks.take whole).flatMap
            (encodeEntry configuration)).length ≤ size → whole ≤ count := by
  constructor
  · exact decodeJournal_whole hworkload hexecution chunks
  · intro size
    obtain ⟨count, hcount, hread⟩ :=
      decodeJournal_take hworkload hexecution chunks size
    refine ⟨count, hread, fun whole hwhole hfits => ?_⟩
    exact (le_length_within _ hwhole hfits).trans hcount

def headerChunk : OutputChunk where
  stream := .stderr
  sequence := 7
  timestampUnixMs := -1
  bytes := utf8 "\n\nSUSM_STREAM=stdout\nMESSAGE\n".toList
  sequence_lt := by decide
  timestamp_lower := by decide
  timestamp_upper := by decide
  length_lt := by decide

theorem decodeJournal_encoded_header :
    decodeJournal
        ([headerChunk, headerChunk].flatMap (encodeEntry toolConfiguration))
        "execution" 1 =
      [logRecord "execution" 1 headerChunk,
        logRecord "execution" 1 headerChunk] :=
  (decodeJournal_encoded (by decide) (by decide) "execution" 1
    [headerChunk, headerChunk]).1

end Susm.Controller

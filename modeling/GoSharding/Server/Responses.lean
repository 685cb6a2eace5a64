import GoSharding.Server.Writers

/-!
# Result sets and prepare responses

`writeResultset` and `writePrepareResponse` chain single-packet writers. Each
writer sends the bytes of its writes (`Writers`), so each response is `sendAll`
of a list of packets: for a result set, the column count, the column
definitions, an EOF, the rows and an EOF, then a flush (`writeResultset_eq`);
for a prepare response, the header and then one block of definitions
(`writePrepareResponse_eq`). The second block is never sent when the first
was, since the first block's branch returns.
-/

namespace GoSharding

/-- Modelled from the spec: the prepared statement a prepare response describes. -/
structure Stmt where
  id : UInt32
  paramCount : Int
  columnCount : Int

/-! ## The layouts the spec gives -/

/-- A column definition as the spec lays it out. -/
def columnDefinitionPacket (f : Field) : Bytes :=
  lenEncString (ascii "def") ++ lenEncString f.Schema ++ lenEncString f.Table ++ lenEncString f.OrgTable ++
    lenEncString f.Name ++ lenEncString f.OrgName ++ [0x0c] ++ le16 f.Charset ++ le32 f.ColumnLength ++
    [f.ColumnType] ++ le16 f.Flag ++ [f.Decimal] ++ [0x00, 0x00]

/-- The EOF packet `writeEOFPacket(status)` sends. -/
def eofPacket (status : UInt16) : Bytes := [0xFE] ++ le16 0 ++ le16 status

/-- The 12-byte header of a prepare response as the spec lays it out. -/
def prepareHeader (s : Stmt) : Bytes :=
  [0x00] ++ le32 s.id ++ le16 (goUint16 s.columnCount) ++ le16 (goUint16 s.paramCount) ++ [0x00] ++ le16 0x0000

/-- A prepare response as the spec lays it out: the header, then each block of
definitions whose count is positive, followed by an EOF. `p i` and `c i` are
the `i`-th parameter and column definitions. -/
def prepareResponseLayout (p c : Nat → Field) (status : UInt16) (s : Stmt) : List Bytes :=
  prepareHeader s ::
    ((if 0 < s.paramCount then (List.range s.paramCount.toNat).map (columnDefinitionPacket ∘ p) ++ [eofPacket status]
      else []) ++
    (if 0 < s.columnCount then (List.range s.columnCount.toNat).map (columnDefinitionPacket ∘ c) ++ [eofPacket status]
      else []))

namespace ClientConn

/-! ## The code -/

/-- The writes of the header of `writePrepareResponse`. -/
def prepareHeaderOps (s : Stmt) : List WriteOp :=
  [.byte 0, .uint32 s.id, .uint16 (goUint16 s.columnCount), .uint16 (goUint16 s.paramCount), .byte 0, .uint16 0]

/-- `writePrepareResponse`. The code leaves `p` and `c` undefined; they are read
as the statement's definitions, `p i` and `c i` in the `i`-th turn of the
loops. The parameter block ends with `return err`, so the column block runs
only when there are no parameters. -/
def writePrepareResponse (p c : Nat → Field) (status : UInt16) (s : Stmt) : ConnM Unit := do
  let length := 1 + 4 + 2 + 2 + 1 + 2
  let data ← StartEphemeralPacket length
  let some (data, pos) := runOps (prepareHeaderOps s) data 0 | goPanic
  if pos ≠ length then
    throw ("internal error packet row: got " ++ toString pos ++ " bytes but expected " ++ toString length)
  WriteEphemeralPacket data
  if s.paramCount > 0 then
    (List.range s.paramCount.toNat).forM fun i => writeColumnDefinition (p i)
    writeEOFPacket status
  else if s.columnCount > 0 then
    (List.range s.columnCount.toNat).forM fun i => writeColumnDefinition (c i)
    writeEOFPacket status

/-! ## Each response is a list of packets -/

theorem flatMap_columnDefinitionOps (field : Field) :
    (columnDefinitionOps field).flatMap WriteOp.out = columnDefinitionPacket field := by
  have h0 : le16 0 = [0x00, 0x00] := rfl
  simp [columnDefinitionOps, columnDefinitionPacket, WriteOp.out, lenEncString, h0]

theorem writeColumnDefinition_sendAll :
    writeColumnDefinition = fun field => sendAll [columnDefinitionPacket field] := by
  funext field
  rw [writeColumnDefinition_eq, flatMap_columnDefinitionOps, sendAll_singleton]

theorem writeEOFPacket_sendAll (status : UInt16) : writeEOFPacket status = sendAll [eofPacket status] :=
  WriteEOFPacket_eq status 0

theorem prepareHeaderOps_out (s : Stmt) : (prepareHeaderOps s).flatMap WriteOp.out = prepareHeader s := by
  simp [prepareHeaderOps, prepareHeader, WriteOp.out]

/-- The packets `writePrepareResponse` sends, in the code's order. -/
def preparePackets (p c : Nat → Field) (status : UInt16) (s : Stmt) : List Bytes :=
  prepareHeader s ::
    if s.paramCount > 0 then (List.range s.paramCount.toNat).map (columnDefinitionPacket ∘ p) ++ [eofPacket status]
    else if s.columnCount > 0 then (List.range s.columnCount.toNat).map (columnDefinitionPacket ∘ c) ++ [eofPacket status]
    else []

theorem writePrepareResponse_eq (p c : Nat → Field) (status : UInt16) (s : Stmt) :
    writePrepareResponse p c status s = sendAll (preparePackets p c status s) := by
  have hblocks : (if s.paramCount > 0 then
        (do (List.range s.paramCount.toNat).forM fun i => writeColumnDefinition (p i); writeEOFPacket status)
      else if s.columnCount > 0 then
        (do (List.range s.columnCount.toNat).forM fun i => writeColumnDefinition (c i); writeEOFPacket status)
      else pure ()) = sendAll (if s.paramCount > 0 then
        (List.range s.paramCount.toNat).map (columnDefinitionPacket ∘ p) ++ [eofPacket status]
      else if s.columnCount > 0 then
        (List.range s.columnCount.toNat).map (columnDefinitionPacket ∘ c) ++ [eofPacket status]
      else []) := by
    simp only [writeColumnDefinition_sendAll, forM_sendAll, writeEOFPacket_sendAll]
    split_ifs <;> (try rw [sendAll_append]) <;> rfl
  apply ExceptT.ext; apply StateT.ext; intro cc
  have hfill : runOps (prepareHeaderOps s) (cc.Conn.pool (1 + 4 + 2 + 2 + 1 + 2)) 0 = some (prepareHeader s, 12) := by
    rw [runOps_fill _ _ (by rw [cc.Conn.pool_length, prepareHeaderOps_out]; rfl), cc.Conn.pool_length,
      prepareHeaderOps_out]
  rw [preparePackets, sendAll_cons, ← hblocks]
  simp [writePrepareResponse, StartEphemeralPacket, hfill, ExceptT.run_bind, StateT.run_bind]

end ClientConn

open ClientConn

/-! ## The writers and the responses -/

/-- Every packet writer fills exactly the buffer it reserves: its writes end
at the reserved length on any buffer of that length, and the writer sends
exactly the bytes of its writes, so it neither panics nor takes its
"internal error" branch. For the prepare response, the header is followed by
the definition packets and nothing of the sanity check. -/
theorem packetWriters_fill_reserved (ServerVersion : Bytes) (DefaultCapability : UInt32) (DefaultCollationID : Nat)
    (initClientConnStatus : UInt16) :
    (∀ (c : Conn) (rand : Nat → UInt8),
      let ops := handshakeV10Ops ServerVersion DefaultCapability DefaultCollationID initClientConnStatus
        c.ConnectionID ((NewClientConn c rand).salt.take 8) ((NewClientConn c rand).salt.drop 8)
      FillsExactly (handshakeV10Length ServerVersion) ops ∧
      (writeInitialHandshakeV10 ServerVersion DefaultCapability DefaultCollationID initClientConnStatus).run.run
          (NewClientConn c rand) =
        (WriteEphemeralPacket (ops.flatMap WriteOp.out)).run.run (NewClientConn c rand)) ∧
    (∀ authMethod salt : Bytes,
      FillsExactly (1 + authMethod.length + 1 + salt.length + 1) (authSwitchRequestOps authMethod salt)) ∧
    (∀ authMethod : Bytes, WriteAuthSwitchRequest authMethod =
      (do WriteEphemeralPacket ((authSwitchRequestOps authMethod (← get).salt).flatMap WriteOp.out))) ∧
    (∀ value : UInt8, FillsExactly 2 (moreDataFlagOps value) ∧
      writeMoreDataFlag value = WriteEphemeralPacket ((moreDataFlagOps value).flatMap WriteOp.out)) ∧
    (∀ count : UInt64, FillsExactly (LenEncIntSize count) (columnCountOps count) ∧
      writeColumnCount count = WriteEphemeralPacket ((columnCountOps count).flatMap WriteOp.out)) ∧
    (∀ row : Bytes, FillsExactly row.length (rowOps row) ∧
      writeRow row = WriteEphemeralPacket ((rowOps row).flatMap WriteOp.out)) ∧
    (∀ field : Field, FillsExactly (columnDefinitionLength field) (columnDefinitionOps field) ∧
      writeColumnDefinition field = WriteEphemeralPacket ((columnDefinitionOps field).flatMap WriteOp.out)) ∧
    (∀ s : Stmt, FillsExactly (1 + 4 + 2 + 2 + 1 + 2) (prepareHeaderOps s)) ∧
    (∀ (p c : Nat → Field) (status : UInt16) (s : Stmt),
      writePrepareResponse p c status s = sendAll (preparePackets p c status s)) := by
  have hs := length_salt_NewClientConn
  refine ⟨fun c rand => ⟨fillsExactly_of_length ?_, writeInitialHandshakeV10_eq _ _ _ _ (hs c rand)⟩,
    fun m salt => fillsExactly_of_length (length_authSwitchRequestOps m salt).symm, WriteAuthSwitchRequest_eq,
    fun v => ⟨fillsExactly_of_length rfl, writeMoreDataFlag_eq v⟩,
    fun n => ⟨fillsExactly_of_length (by simp [columnCountOps, WriteOp.out, length_lenEncInt]), writeColumnCount_eq n⟩,
    fun row => ⟨fillsExactly_of_length (by simp [rowOps, WriteOp.out]), writeRow_eq row⟩,
    fun f => ⟨fillsExactly_of_length (length_columnDefinitionOps f).symm, writeColumnDefinition_eq f⟩,
    fun s => fillsExactly_of_length (by simp [prepareHeaderOps, WriteOp.out]), writePrepareResponse_eq⟩
  exact (length_handshakeV10Ops _ _ _ _ _ (by simp [hs]) (by simp [hs])).symm

/-- With one parameter and one result column, `writePrepareResponse` sends the
header, the parameter's definition and an EOF, and nothing more: the spec's
response has the column's definition and a second EOF after them. -/
theorem writePrepareResponse_skips_columns (p c : Nat → Field) (status : UInt16) (id : UInt32) :
    writePrepareResponse p c status ⟨id, 1, 1⟩ =
      sendAll [prepareHeader ⟨id, 1, 1⟩, columnDefinitionPacket (p 0), eofPacket status] ∧
    prepareResponseLayout p c status ⟨id, 1, 1⟩ =
      [prepareHeader ⟨id, 1, 1⟩, columnDefinitionPacket (p 0), eofPacket status,
        columnDefinitionPacket (c 0), eofPacket status] :=
  ⟨by rw [writePrepareResponse_eq]; rfl, rfl⟩

end GoSharding

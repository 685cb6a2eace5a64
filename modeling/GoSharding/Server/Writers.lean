import GoSharding.Server.Conn

/-!
# Single-packet writers

Each writer of `ClientConn` computes the length it reserves with one
expression and then fills the buffer with a separate sequence of writes. For
each writer the two agree (`length_columnDefinitionOps` and its siblings), so
by `writeEphemeral_eq` the writer sends exactly the bytes of its writes: on any
reserved buffer the writes end at the reserved length, no write goes past it,
and the "internal error" branches are never taken. The older handshake writer,
which appends its fields, sends the V10 packet followed by the plugin name.
-/

namespace GoSharding

/-- Modelled from the spec: `mysql.ProtocolVersion`. -/
def ProtocolVersion : UInt8 := 10

/-- Modelled from the spec: `mysql.AuthSwitchHeader`. -/
def AuthSwitchHeader : UInt8 := 0xFE

/-- Modelled from the spec: `mysql.MoreDataPacket`. -/
def MoreDataPacket : UInt8 := 0x01

/-- Modelled from the spec: `mysql.CacheSha2FastAuthSucceed`. -/
def CacheSha2FastAuthSucceed : UInt8 := 0x03

/-- Modelled from the spec: `mysql.CacheSha2FullAuthRequired`. -/
def CacheSha2FullAuthRequired : UInt8 := 0x04

/-- Modelled from the spec: `mysql.AUTH_CACHING_SHA2_PASSWORD`, the default plugin. -/
def AUTH_CACHING_SHA2_PASSWORD : Bytes := ascii "caching_sha2_password"

/-- Modelled from the spec: the column description `mysql.Field`. -/
structure Field where
  Schema : Bytes
  Table : Bytes
  OrgTable : Bytes
  Name : Bytes
  OrgName : Bytes
  Charset : UInt16
  ColumnLength : UInt32
  /-- Go's `Type` -/
  ColumnType : UInt8
  Flag : UInt16
  Decimal : UInt8
deriving DecidableEq, Repr

/-- The writes fill a reserved buffer of `length` bytes exactly: on any buffer
of that length, whatever it held, they end at position `length` and leave the
bytes they mean to write. -/
def FillsExactly (length : Nat) (ops : List WriteOp) : Prop :=
  ∀ buf : Bytes, buf.length = length → runOps ops buf 0 = some (ops.flatMap WriteOp.out, length)

theorem fillsExactly_of_length {length : Nat} {ops : List WriteOp}
    (h : length = (ops.flatMap WriteOp.out).length) : FillsExactly length ops := fun buf hb => by
  rw [runOps_fill ops buf (hb.trans h), hb]

namespace ClientConn

/-! ## The handshake -/

section Handshake

variable (ServerVersion : Bytes) (DefaultCapability : UInt32) (DefaultCollationID : Nat)
  (initClientConnStatus : UInt16)

/-- The length `writeInitialHandshakeV10` reserves. -/
def handshakeV10Length : Nat :=
  1 + LenNullString ServerVersion + 4 + 8 + 1 + 2 + 1 + 2 + 2 + 1 + 10 + 13

/-- The writes of `writeInitialHandshakeV10`, with the connection id and the two
parts of the salt it copies. -/
def handshakeV10Ops (connectionID : UInt32) (salt1 salt2 : Bytes) : List WriteOp :=
  [.byte ProtocolVersion, .nullString ServerVersion, .uint32 connectionID, .bytes salt1, .byte 0,
    .uint16 DefaultCapability.toUInt16, .byte DefaultCollationID.toUInt8, .uint16 initClientConnStatus,
    .uint16 (DefaultCapability >>> 16).toUInt16, .byte 21, .zeroes 10, .bytes salt2, .byte 0]

/-- `writeInitialHandshakeV10`; `cc.salt[:8]` and `cc.salt[8:]` panic on a salt
shorter than 8 bytes. -/
def writeInitialHandshakeV10 : ConnM Unit := do
  let cc ← get
  let some salt1 := (Slice.ofBytes cc.salt).sub 0 8 | goPanic
  let some salt2 := (Slice.ofBytes cc.salt).drop 8 | goPanic
  writeEphemeral (handshakeV10Length ServerVersion)
    (handshakeV10Ops ServerVersion DefaultCapability DefaultCollationID initClientConnStatus
      cc.Conn.ConnectionID salt1 salt2)
    (some fun pos n => "error building Handshake packet: got " ++ toString pos ++ " bytes expected " ++ toString n)

theorem length_handshakeV10Ops (connectionID : UInt32) {salt1 salt2 : Bytes} (h1 : salt1.length = 8)
    (h2 : salt2.length = 12) :
    ((handshakeV10Ops ServerVersion DefaultCapability DefaultCollationID initClientConnStatus
      connectionID salt1 salt2).flatMap WriteOp.out).length = handshakeV10Length ServerVersion := by
  simp [handshakeV10Ops, handshakeV10Length, WriteOp.out, LenNullString, h1, h2]
  omega

/-- On a connection whose salt has 20 bytes, the handshake is the packet of its writes. -/
theorem writeInitialHandshakeV10_eq {cc : ClientConn} (hs : cc.salt.length = 20) :
    (writeInitialHandshakeV10 ServerVersion DefaultCapability DefaultCollationID initClientConnStatus).run.run cc =
      (WriteEphemeralPacket ((handshakeV10Ops ServerVersion DefaultCapability DefaultCollationID
        initClientConnStatus cc.Conn.ConnectionID (cc.salt.take 8) (cc.salt.drop 8)).flatMap WriteOp.out)).run.run cc := by
  have h1 : (Slice.ofBytes cc.salt).sub 0 8 = some (cc.salt.take 8) := @Slice.ofBytes_sub _ 8 (by omega)
  have h2 : (Slice.ofBytes cc.salt).drop 8 = some (cc.salt.drop 8) := Slice.ofBytes_drop (by omega)
  rw [← @writeEphemeral_eq _ _ (some fun pos n => "error building Handshake packet: got " ++ toString pos ++
    " bytes expected " ++ toString n) (length_handshakeV10Ops _ _ _ _ _ (by simp [hs]) (by simp [hs])).symm]
  simp [writeInitialHandshakeV10, ExceptT.run_bind, StateT.run_bind, h1, h2]

/-- `writeInitialHandshake`, the older writer: the same fields appended one by
one, status 0, and the plugin name after them; `cc.salt[0:8]` and
`cc.salt[8:]` panic on a salt shorter than 8 bytes. -/
def writeInitialHandshake : ConnM Unit := do
  let cc ← get
  let some salt1 := (Slice.ofBytes cc.salt).sub 0 8 | goPanic
  let some salt2 := (Slice.ofBytes cc.salt).drop 8 | goPanic
  let id := cc.Conn.ConnectionID
  let data : Bytes := [ProtocolVersion] ++ ServerVersion ++ [(0x00 : UInt8)] ++
    [id.toUInt8, (id >>> 8).toUInt8, (id >>> 16).toUInt8, (id >>> 24).toUInt8] ++ salt1 ++ [(0x00 : UInt8)] ++
    [DefaultCapability.toUInt8, (DefaultCapability >>> 8).toUInt8] ++ [DefaultCollationID.toUInt8] ++
    [(0 : UInt8), 0] ++ [(DefaultCapability >>> 16).toUInt8, (DefaultCapability >>> 24).toUInt8] ++
    [(8 + 12 + 1 : UInt8)] ++ [(0 : UInt8), 0, 0, 0, 0, 0, 0, 0, 0, 0] ++ salt2 ++ [(0x00 : UInt8)] ++
    AUTH_CACHING_SHA2_PASSWORD ++ [(0 : UInt8)]
  WritePacket data

/-- The older writer sends the V10 packet with status 0 and then the plugin name
the V10 writer leaves out; it needs only 8 bytes of salt. -/
theorem writeInitialHandshake_eq {cc : ClientConn} (hs : 8 ≤ cc.salt.length) :
    (writeInitialHandshake ServerVersion DefaultCapability DefaultCollationID).run.run cc =
      (WritePacket ((handshakeV10Ops ServerVersion DefaultCapability DefaultCollationID 0 cc.Conn.ConnectionID
        (cc.salt.take 8) (cc.salt.drop 8)).flatMap WriteOp.out ++ AUTH_CACHING_SHA2_PASSWORD ++ [0])).run.run cc := by
  have h1 : (Slice.ofBytes cc.salt).sub 0 8 = some (cc.salt.take 8) := Slice.ofBytes_sub hs
  have h2 : (Slice.ofBytes cc.salt).drop 8 = some (cc.salt.drop 8) := Slice.ofBytes_drop hs
  simp only [handshakeV10Ops, List.flatMap_cons, List.flatMap_nil, WriteOp.out, ← le16_upper_shifts]
  simp [writeInitialHandshake, ExceptT.run_bind, StateT.run_bind, h1, h2, ← le32_shifts, ← le16_shifts,
    show le16 0 = [0, 0] from rfl]

end Handshake

/-! ## Authentication packets -/

/-- The writes of `writeMoreDataFlag`. -/
def moreDataFlagOps (value : UInt8) : List WriteOp := [.byte MoreDataPacket, .byte value]

def writeMoreDataFlag (value : UInt8) : ConnM Unit := writeEphemeral 2 (moreDataFlagOps value) none

def WriteAuthMoreDataFastAuth : ConnM Unit := writeMoreDataFlag CacheSha2FastAuthSucceed

def WriteAuthMoreDataFullAuth : ConnM Unit := writeMoreDataFlag CacheSha2FullAuthRequired

/-- The writes of `WriteAuthSwitchRequest`. -/
def authSwitchRequestOps (authMethod salt : Bytes) : List WriteOp :=
  [.byte AuthSwitchHeader, .nullString authMethod, .bytes salt, .byte 0]

def WriteAuthSwitchRequest (authMethod : Bytes) : ConnM Unit := do
  let cc ← get
  writeEphemeral (1 + authMethod.length + 1 + cc.salt.length + 1) (authSwitchRequestOps authMethod cc.salt) none

theorem length_authSwitchRequestOps (authMethod salt : Bytes) :
    ((authSwitchRequestOps authMethod salt).flatMap WriteOp.out).length = 1 + authMethod.length + 1 + salt.length + 1 := by
  simp [authSwitchRequestOps, WriteOp.out]; omega

theorem writeMoreDataFlag_eq (value : UInt8) :
    writeMoreDataFlag value = WriteEphemeralPacket ((moreDataFlagOps value).flatMap WriteOp.out) :=
  writeEphemeral_eq rfl

theorem WriteAuthSwitchRequest_eq (authMethod : Bytes) :
    WriteAuthSwitchRequest authMethod =
      (do WriteEphemeralPacket ((authSwitchRequestOps authMethod (← get).salt).flatMap WriteOp.out)) := by
  simp only [WriteAuthSwitchRequest, writeEphemeral_eq (length_authSwitchRequestOps _ _).symm]

/-! ## Result-set packets -/

/-- The writes of `writeColumnCount`. -/
def columnCountOps (count : UInt64) : List WriteOp := [.lenEncInt count]

def writeColumnCount (count : UInt64) : ConnM Unit := writeEphemeral (LenEncIntSize count) (columnCountOps count) none

/-- The writes of `writeRow`: the copy into `data[0:]`. -/
def rowOps (row : Bytes) : List WriteOp := [.copyAdvance row]

def writeRow (row : Bytes) : ConnM Unit := writeEphemeral row.length (rowOps row) none

/-- The length `writeColumnDefinition` reserves. -/
def columnDefinitionLength (field : Field) : Nat :=
  4 + LenEncIntSize field.Schema.length.toUInt64 + field.Schema.length +
    LenEncIntSize field.Table.length.toUInt64 + field.Table.length +
    LenEncIntSize field.OrgTable.length.toUInt64 + field.OrgTable.length +
    LenEncIntSize field.Name.length.toUInt64 + field.Name.length +
    LenEncIntSize field.OrgName.length.toUInt64 + field.OrgName.length +
    1 + 2 + 4 + 1 + 2 + 1 + 2

/-- The writes of `writeColumnDefinition`. -/
def columnDefinitionOps (field : Field) : List WriteOp :=
  [.lenEncString (ascii "def"),
    .lenEncInt field.Schema.length.toUInt64, .copyAdvance field.Schema,
    .lenEncInt field.Table.length.toUInt64, .copyAdvance field.Table,
    .lenEncInt field.OrgTable.length.toUInt64, .copyAdvance field.OrgTable,
    .lenEncInt field.Name.length.toUInt64, .copyAdvance field.Name,
    .lenEncInt field.OrgName.length.toUInt64, .copyAdvance field.OrgName,
    .byte 0x0c, .uint16 field.Charset, .uint32 field.ColumnLength, .byte field.ColumnType, .uint16 field.Flag,
    .byte field.Decimal, .uint16 0x0000]

def writeColumnDefinition (field : Field) : ConnM Unit :=
  writeEphemeral (columnDefinitionLength field) (columnDefinitionOps field)
    (some fun pos n => "internal error: packing of column definition used " ++ toString pos ++
      " bytes instead of " ++ toString n)

theorem length_columnDefinitionOps (field : Field) :
    ((columnDefinitionOps field).flatMap WriteOp.out).length = columnDefinitionLength field := by
  have hdef : (lenEncString (ascii "def")).length = 4 := rfl
  simp [columnDefinitionOps, columnDefinitionLength, WriteOp.out, length_lenEncInt, hdef]
  omega

theorem writeColumnCount_eq (count : UInt64) :
    writeColumnCount count = WriteEphemeralPacket ((columnCountOps count).flatMap WriteOp.out) :=
  writeEphemeral_eq (by simp [columnCountOps, WriteOp.out, length_lenEncInt])

theorem writeRow_eq (row : Bytes) : writeRow row = WriteEphemeralPacket ((rowOps row).flatMap WriteOp.out) :=
  writeEphemeral_eq (by simp [rowOps, WriteOp.out])

theorem writeColumnDefinition_eq (field : Field) :
    writeColumnDefinition field = WriteEphemeralPacket ((columnDefinitionOps field).flatMap WriteOp.out) :=
  writeEphemeral_eq (length_columnDefinitionOps field).symm

end ClientConn

end GoSharding

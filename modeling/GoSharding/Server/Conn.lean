import GoSharding.Mysql.Encoding

/-!
# The client connection

`ClientConn` embeds a `mysql.Conn`, whose package is not part of the sources;
what the packet writers use of it is modelled from the spec. `StartEphemeralPacket`
hands out a buffer of the asked length from a pool, holding whatever bytes the
pool last held; `WriteEphemeralPacket` hands the buffer to the network writer
as one packet; `Flush` pushes the writer's buffer out. The network may refuse
any write or flush: the connection carries that as two oracles over the packets
written so far. Packets are recorded as payloads; the framing is left out.

A method of `ClientConn` runs in `ConnM`: it panics (`none`), or returns an
error or a result together with the connection after it. `sendAll` writes
packets one after another and stops at the first refused write: with a network
that refuses nothing it sends them all (`run_sendAll_ok`); when it returns an
error, that is the error of the first refused packet and no later packet was
sent (`sendAll_error`).
-/

namespace GoSharding

/-- Modelled from the spec: the part of `mysql.Conn` the writers use. -/
structure Conn where
  /-- `GetConnectionID()` -/
  ConnectionID : UInt32
  /-- The buffer pool: `pool n` is a buffer of length `n` with stale bytes. -/
  pool : Nat → Bytes
  pool_length : ∀ n, (pool n).length = n
  /-- The packets handed to the network writer so far, oldest first. -/
  sent : List Bytes
  /-- The error the network gives to a packet written after `sent`, if any. -/
  writeFault : List Bytes → Option String
  /-- The error a flush after `sent` gives, if any. -/
  flushFault : List Bytes → Option String

/-- `ClientConn`: the connection and the salt of its handshake. The statistics
manager and the namespace only feed write-flow counters and are left out. -/
structure ClientConn where
  Conn : Conn
  salt : Bytes

/-- A step of a `ClientConn` method: a panic, or an error or a result with the
connection after it. -/
abbrev ConnM := ExceptT String (StateT ClientConn Option)

/-- A Go panic: the method does not return. -/
def goPanic {α : Type} : ConnM α := ExceptT.lift (StateT.lift none)

@[simp] theorem run_get (cc : ClientConn) : (ExceptT.run (get : ConnM ClientConn)).run cc = some (.ok cc, cc) :=
  rfl

@[simp] theorem run_set (cc cc' : ClientConn) : (ExceptT.run (set cc' : ConnM Unit)).run cc = some (.ok (), cc') :=
  rfl

@[simp] theorem run_throw {α : Type} (e : String) (cc : ClientConn) :
    (ExceptT.run (throw e : ConnM α)).run cc = some (.error e, cc) := rfl

@[simp] theorem run_goPanic {α : Type} (cc : ClientConn) : (ExceptT.run (goPanic : ConnM α)).run cc = none := rfl

theorem run_bind {α β : Type} (x : ConnM α) (f : α → ConnM β) (cc : ClientConn) :
    (x >>= f).run.run cc = (x.run.run cc).bind fun
      | (.ok a, cc') => (f a).run.run cc'
      | (.error e, cc') => some (.error e, cc') := by
  simp only [ExceptT.run_bind, StateT.run_bind]
  rcases x.run.run cc with _ | ⟨_ | _, _⟩ <;> rfl

/-- Modelled from the spec: `mysql.RandomBuf(size)`, `size` bytes drawn from `rand`. -/
def RandomBuf (rand : Nat → UInt8) (size : Nat) : Bytes := (List.range size).map rand

/-- `NewClientConn`: a 20-byte salt for the handshake. -/
def NewClientConn (c : Conn) (rand : Nat → UInt8) : ClientConn := { Conn := c, salt := RandomBuf rand 20 }

@[simp] theorem length_salt_NewClientConn (c : Conn) (rand : Nat → UInt8) : (NewClientConn c rand).salt.length = 20 := by
  simp [NewClientConn, RandomBuf]

namespace ClientConn

/-- The connection after `ps` have been handed to the writer. -/
def withSent (cc : ClientConn) (ps : List Bytes) : ClientConn :=
  { cc with Conn := { cc.Conn with sent := cc.Conn.sent ++ ps } }

@[simp] theorem withSent_nil (cc : ClientConn) : cc.withSent [] = cc := by
  simp [withSent]

@[simp] theorem sent_withSent (cc : ClientConn) (ps : List Bytes) : (cc.withSent ps).Conn.sent = cc.Conn.sent ++ ps :=
  rfl

@[simp] theorem writeFault_withSent (cc : ClientConn) (ps : List Bytes) :
    (cc.withSent ps).Conn.writeFault = cc.Conn.writeFault := rfl

@[simp] theorem flushFault_withSent (cc : ClientConn) (ps : List Bytes) :
    (cc.withSent ps).Conn.flushFault = cc.Conn.flushFault := rfl

/-! ## What the writers call -/

/-- `StartEphemeralPacket(length)`: a buffer from the pool. The writer's stores
into it are the model's `runOps` on the returned bytes. -/
def StartEphemeralPacket (length : Nat) : ConnM Bytes := return (← get).Conn.pool length

/-- `WriteEphemeralPacket()`: the reserved buffer, as the writer left it, goes
to the network writer as one packet. -/
def WriteEphemeralPacket (data : Bytes) : ConnM Unit := do
  let cc ← get
  match cc.Conn.writeFault cc.Conn.sent with
  | some err => throw err
  | none => set (cc.withSent [data])

/-- Modelled from the spec: `WritePacket(data)`, which sends `data` as one
packet. At the model's level of detail it is `WriteEphemeralPacket` on bytes
the caller built. -/
def WritePacket (data : Bytes) : ConnM Unit := WriteEphemeralPacket data

/-- The shape every single-packet writer has: reserve `length` bytes, run the
statements from position 0, make the writer's sanity check of the final
position if it has one (`check` gives its message), and send the buffer. -/
def writeEphemeral (length : Nat) (ops : List WriteOp) (check : Option (Nat → Nat → String)) : ConnM Unit := do
  let data ← StartEphemeralPacket length
  let some (data, pos) := runOps ops data 0 | goPanic
  if let some msg := check then
    if pos ≠ data.length then throw (msg pos data.length)
  WriteEphemeralPacket data

/-- A writer whose reserved length is the length of what its statements write
sends exactly those bytes: it cannot panic, and its sanity check never fails,
whatever stale bytes the pool hands out. -/
theorem writeEphemeral_eq {length : Nat} {ops : List WriteOp} {check : Option (Nat → Nat → String)}
    (h : length = (ops.flatMap WriteOp.out).length) :
    writeEphemeral length ops check = WriteEphemeralPacket (ops.flatMap WriteOp.out) := by
  apply ExceptT.ext; apply StateT.ext; intro cc
  have hfill : runOps ops (cc.Conn.pool length) 0 = some (ops.flatMap WriteOp.out, length) := by
    rw [runOps_fill ops _ (by rw [cc.Conn.pool_length, h]), cc.Conn.pool_length]
  generalize ops.flatMap WriteOp.out = bytes at h hfill ⊢
  cases check <;> simp [writeEphemeral, StartEphemeralPacket, hfill, ExceptT.run_bind, StateT.run_bind, ← h]

/-- Modelled from the spec: `mysql.Conn.WriteEOFPacket(flags, warnings)`, the
EOF marker `0xFE`, the warning count and the status flags. -/
def WriteEOFPacket (flags warnings : UInt16) : ConnM Unit :=
  writeEphemeral 5 [.byte 0xFE, .uint16 warnings, .uint16 flags] none

/-- `writeEOFPacket(status)`; the warning it logs on failure is left out. -/
def writeEOFPacket (status : UInt16) : ConnM Unit := WriteEOFPacket status 0

/-! ## Sending packets one after another -/

/-- The packets `ps` written in order; the first refused write stops it. -/
def sendAll (ps : List Bytes) : ConnM Unit := ps.forM WriteEphemeralPacket

theorem sendAll_append (ps qs : List Bytes) : sendAll (ps ++ qs) = (do sendAll ps; sendAll qs) :=
  List.forM_append ps qs _

theorem sendAll_cons (p : Bytes) (ps : List Bytes) : sendAll (p :: ps) = (do WriteEphemeralPacket p; sendAll ps) :=
  rfl

theorem sendAll_singleton (p : Bytes) : sendAll [p] = WriteEphemeralPacket p := by
  simp [sendAll]

theorem forM_sendAll {α : Type} (l : List α) (f : α → Bytes) :
    (l.forM fun a => sendAll [f a]) = sendAll (l.map f) := by
  induction l with
  | nil => rfl
  | cons a l ih => rw [List.forM, ih, sendAll_singleton, List.map_cons, sendAll_cons]

theorem WriteEOFPacket_eq (flags warnings : UInt16) :
    WriteEOFPacket flags warnings = sendAll [[0xFE] ++ le16 warnings ++ le16 flags] := by
  rw [WriteEOFPacket, writeEphemeral_eq (by simp [WriteOp.out]), sendAll_singleton]
  simp [WriteOp.out]

end ClientConn

end GoSharding

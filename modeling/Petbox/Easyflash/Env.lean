/-
The environment store of EasyFlash (`ef_env.c`, next generation mode, with both
caches, on the 20 sectors of `ef_cfg.h`), on which the NV items lie.

The flash is modelled by its records: a sector has its two status words and the
nodes written behind its header, a node its status, its name and its value. A
record is read back as it was written, its CRC agrees, and the flash functions
succeed; the states that only a loss of power leaves (a node without a whole
header, a sector without one) are not modelled, nor is the recovery from them.
-/
import Mathlib.Logic.Function.Basic
import Petbox.Lib.CString
import Petbox.Lib.Log

namespace Petbox.Easyflash

open CStr

def sectorSize : Nat := 0x1000
def sectorNum : Nat := 20
def sectorHdrDataSize : Nat := 36
def envHdrDataSize : Nat := 40
def envMagicOffset : Nat := 20
def envNameMax : Nat := 32
def secRemainThreshold : Nat := envHdrDataSize + envNameMax
def gcEmptySecThreshold : Nat := 1
def envCacheTableSize : Nat := 16
def sectorCacheTableSize : Nat := 4

/-- `EF_WG_ALIGN`, for words of four bytes. -/
def wgAlign (size : Nat) : Nat := (size + 3) / 4 * 4

inductive EfErrCode where
  | noErr | envNameErr | envFull | envInitFailed
  deriving DecidableEq, Repr

inductive SectorStoreStatus where
  | storeEmpty | storeUsing | storeFull
  deriving DecidableEq, Repr

inductive SectorDirtyStatus where
  | dirtyFalse | dirtyTrue | dirtyGc
  deriving DecidableEq, Repr

inductive EnvStatus where
  | preWrite | write | preDelete | deleted
  deriving DecidableEq, Repr

abbrev Key := List UInt8
abbrev Value := List UInt8

/-- A node on the flash, at `off` bytes behind the start of its sector. -/
structure Node where
  off : Nat
  status : EnvStatus
  name : Key
  value : Value
  deriving DecidableEq, Repr

/-- The length of a node: header, aligned name, aligned value. -/
def envLen (keyLen valueLen : Nat) : Nat := envHdrDataSize + wgAlign keyLen + wgAlign valueLen

def Node.len (n : Node) : Nat := envLen n.name.length n.value.length

/-- The lengths of nodes together. -/
def used : List Node → Nat
  | [] => 0
  | n :: ns => n.len + used ns

structure Sector where
  store : SectorStoreStatus
  dirty : SectorDirtyStatus
  nodes : List Node
  deriving DecidableEq, Repr

/-- The address of a node. -/
structure Addr where
  sector : Fin sectorNum
  off : Nat
  deriving DecidableEq, Repr

/-- `env_cache_node`; no address is `FAILED_ADDR`. -/
structure EnvCacheNode where
  nameCrc : UInt16
  active : UInt16
  addr : Option Addr
  deriving DecidableEq, Repr

/-- `sector_cache_node`; the empty address as an offset in the sector. -/
structure SectorCacheNode where
  addr : Option (Fin sectorNum)
  emptyAddr : Nat
  deriving DecidableEq, Repr

/-- The flash and the static variables of `ef_env.c`, but for `init_ok`. -/
structure Ef where
  sectors : Fin sectorNum → Sector
  sectorCacheTable : List SectorCacheNode
  envCacheTable : List EnvCacheNode
  gcRequest : Bool
  lastIsCompleteDel : Bool

/-- What the code reads without having written it: `env->name` before the first
node is read into it, and the flash behind a node. -/
structure Stale where
  name : List UInt8
  behind : Addr → List UInt8

/-! ## The flash -/

def Ef.setSector (s : Ef) (j : Fin sectorNum) (b : Sector) : Ef := { s with sectors := Function.update s.sectors j b }

def Ef.nodeAt (s : Ef) (a : Addr) : Option Node := (s.sectors a.sector).nodes.find? fun n => n.off = a.off

/-- `write_status` of a node. -/
def Ef.writeStatus (s : Ef) (a : Addr) (status : EnvStatus) : Ef :=
  s.setSector a.sector { s.sectors a.sector with
    nodes := Log.mark Node.off a.off (fun n => { n with status }) (s.sectors a.sector).nodes }

/-- A node is written to the empty flash at `n.off`. -/
def Ef.writeNode (s : Ef) (j : Fin sectorNum) (n : Node) : Ef :=
  s.setSector j { s.sectors j with nodes := (s.sectors j).nodes ++ [n] }

/-- Bytes as they are written, filled up to whole words. -/
def padded (l : List UInt8) : List UInt8 := l ++ List.replicate (wgAlign l.length - l.length) 0xff

/-- The bytes of a node behind its header. -/
def Node.text (n : Node) : List UInt8 := padded n.name ++ padded n.value

/-! ## The sector cache -/

def updateSectorCache (table : List SectorCacheNode) (sec : Fin sectorNum) (emptyAddr : Nat) : List SectorCacheNode :=
  if 0 < emptyAddr ∧ emptyAddr < sectorSize then
    match table.findIdx? (·.addr = some sec) with
    | some i => table.set i ⟨some sec, emptyAddr⟩
    | none =>
      match table.findIdx? (·.addr = none) with
      | some i => table.set i ⟨some sec, emptyAddr⟩
      | none => table
  else
    match table.findIdx? (·.addr = some sec) with
    | some i => table.modify i fun c => { c with addr := none }
    | none => table

def getSectorFromCache (table : List SectorCacheNode) (sec : Fin sectorNum) : Option Nat :=
  (table.find? (·.addr = some sec)).map SectorCacheNode.emptyAddr

/-! ## The nodes of a sector -/

/-- `find_next_env_addr` again and again: the nodes whose magic word is found
behind `start`, up to the first that begins where the sector cache has the
empty space, or too near to the end of the sector. -/
def scanFrom (stop : Option Nat) (start : Nat) : List Node → List Node
  | [] => []
  | n :: ns =>
    if stop = some start then []
    else if n.off < start then scanFrom stop start ns
    else if n.off + envMagicOffset < sectorSize - sectorHdrDataSize then n :: scanFrom stop (n.off + n.len) ns
    else []

/-- The nodes that `get_next_env_addr` gives one after the other; the first is
the one behind the sector header. -/
def Ef.found (s : Ef) (j : Fin sectorNum) : List Node :=
  match (s.sectors j).nodes with
  | [] => []
  | n :: ns => n :: scanFrom (getSectorFromCache s.sectorCacheTable j) (n.off + n.len) ns

/-- `continue_ff_addr`: where the bytes 0xff begin that go on to the end of the
sector; the last of a node may belong to them. -/
def continueFfAddr (nodes : List Node) (start : Nat) : Nat :=
  match nodes.getLast? with
  | none => start
  | some n =>
    if n.off + n.len ≤ start then start
    else wgAlign (n.off + n.len - (n.text.reverse.takeWhile (· = 0xff)).length)

/-- `sector_meta_data`. -/
structure SectorMetaData where
  addr : Fin sectorNum
  store : SectorStoreStatus
  dirty : SectorDirtyStatus
  remain : Nat
  emptyEnv : Nat
  deriving DecidableEq, Repr

/-- `read_sector_meta_data` with `traversal`. -/
def readSectorMetaData (s : Ef) (j : Fin sectorNum) : Ef × SectorMetaData :=
  let b := s.sectors j
  match b.store with
  | .storeEmpty => (s, ⟨j, b.store, b.dirty, sectorSize - sectorHdrDataSize, sectorHdrDataSize⟩)
  | .storeFull => (s, ⟨j, b.store, b.dirty, 0, sectorHdrDataSize⟩)
  | .storeUsing =>
    match getSectorFromCache s.sectorCacheTable j with
    | some emptyEnv => (s, ⟨j, b.store, b.dirty, sectorSize - emptyEnv, emptyEnv⟩)
    | none =>
      let emptyEnv := sectorHdrDataSize + used (s.found j)
      let ffAddr := continueFfAddr b.nodes emptyEnv
      ({ s with sectorCacheTable := updateSectorCache s.sectorCacheTable j ffAddr },
        ⟨j, b.store, b.dirty, sectorSize - ffAddr, ffAddr⟩)

/-! ## The cache of the names -/

def crc32Table : List UInt32 := [
  0x00000000, 0x77073096, 0xee0e612c, 0x990951ba, 0x076dc419, 0x706af48f,
  0xe963a535, 0x9e6495a3, 0x0edb8832, 0x79dcb8a4, 0xe0d5e91e, 0x97d2d988,
  0x09b64c2b, 0x7eb17cbd, 0xe7b82d07, 0x90bf1d91, 0x1db71064, 0x6ab020f2,
  0xf3b97148, 0x84be41de, 0x1adad47d, 0x6ddde4eb, 0xf4d4b551, 0x83d385c7,
  0x136c9856, 0x646ba8c0, 0xfd62f97a, 0x8a65c9ec, 0x14015c4f, 0x63066cd9,
  0xfa0f3d63, 0x8d080df5, 0x3b6e20c8, 0x4c69105e, 0xd56041e4, 0xa2677172,
  0x3c03e4d1, 0x4b04d447, 0xd20d85fd, 0xa50ab56b, 0x35b5a8fa, 0x42b2986c,
  0xdbbbc9d6, 0xacbcf940, 0x32d86ce3, 0x45df5c75, 0xdcd60dcf, 0xabd13d59,
  0x26d930ac, 0x51de003a, 0xc8d75180, 0xbfd06116, 0x21b4f4b5, 0x56b3c423,
  0xcfba9599, 0xb8bda50f, 0x2802b89e, 0x5f058808, 0xc60cd9b2, 0xb10be924,
  0x2f6f7c87, 0x58684c11, 0xc1611dab, 0xb6662d3d, 0x76dc4190, 0x01db7106,
  0x98d220bc, 0xefd5102a, 0x71b18589, 0x06b6b51f, 0x9fbfe4a5, 0xe8b8d433,
  0x7807c9a2, 0x0f00f934, 0x9609a88e, 0xe10e9818, 0x7f6a0dbb, 0x086d3d2d,
  0x91646c97, 0xe6635c01, 0x6b6b51f4, 0x1c6c6162, 0x856530d8, 0xf262004e,
  0x6c0695ed, 0x1b01a57b, 0x8208f4c1, 0xf50fc457, 0x65b0d9c6, 0x12b7e950,
  0x8bbeb8ea, 0xfcb9887c, 0x62dd1ddf, 0x15da2d49, 0x8cd37cf3, 0xfbd44c65,
  0x4db26158, 0x3ab551ce, 0xa3bc0074, 0xd4bb30e2, 0x4adfa541, 0x3dd895d7,
  0xa4d1c46d, 0xd3d6f4fb, 0x4369e96a, 0x346ed9fc, 0xad678846, 0xda60b8d0,
  0x44042d73, 0x33031de5, 0xaa0a4c5f, 0xdd0d7cc9, 0x5005713c, 0x270241aa,
  0xbe0b1010, 0xc90c2086, 0x5768b525, 0x206f85b3, 0xb966d409, 0xce61e49f,
  0x5edef90e, 0x29d9c998, 0xb0d09822, 0xc7d7a8b4, 0x59b33d17, 0x2eb40d81,
  0xb7bd5c3b, 0xc0ba6cad, 0xedb88320, 0x9abfb3b6, 0x03b6e20c, 0x74b1d29a,
  0xead54739, 0x9dd277af, 0x04db2615, 0x73dc1683, 0xe3630b12, 0x94643b84,
  0x0d6d6a3e, 0x7a6a5aa8, 0xe40ecf0b, 0x9309ff9d, 0x0a00ae27, 0x7d079eb1,
  0xf00f9344, 0x8708a3d2, 0x1e01f268, 0x6906c2fe, 0xf762575d, 0x806567cb,
  0x196c3671, 0x6e6b06e7, 0xfed41b76, 0x89d32be0, 0x10da7a5a, 0x67dd4acc,
  0xf9b9df6f, 0x8ebeeff9, 0x17b7be43, 0x60b08ed5, 0xd6d6a3e8, 0xa1d1937e,
  0x38d8c2c4, 0x4fdff252, 0xd1bb67f1, 0xa6bc5767, 0x3fb506dd, 0x48b2364b,
  0xd80d2bda, 0xaf0a1b4c, 0x36034af6, 0x41047a60, 0xdf60efc3, 0xa867df55,
  0x316e8eef, 0x4669be79, 0xcb61b38c, 0xbc66831a, 0x256fd2a0, 0x5268e236,
  0xcc0c7795, 0xbb0b4703, 0x220216b9, 0x5505262f, 0xc5ba3bbe, 0xb2bd0b28,
  0x2bb45a92, 0x5cb36a04, 0xc2d7ffa7, 0xb5d0cf31, 0x2cd99e8b, 0x5bdeae1d,
  0x9b64c2b0, 0xec63f226, 0x756aa39c, 0x026d930a, 0x9c0906a9, 0xeb0e363f,
  0x72076785, 0x05005713, 0x95bf4a82, 0xe2b87a14, 0x7bb12bae, 0x0cb61b38,
  0x92d28e9b, 0xe5d5be0d, 0x7cdcefb7, 0x0bdbdf21, 0x86d3d2d4, 0xf1d4e242,
  0x68ddb3f8, 0x1fda836e, 0x81be16cd, 0xf6b9265b, 0x6fb077e1, 0x18b74777,
  0x88085ae6, 0xff0f6a70, 0x66063bca, 0x11010b5c, 0x8f659eff, 0xf862ae69,
  0x616bffd3, 0x166ccf45, 0xa00ae278, 0xd70dd2ee, 0x4e048354, 0x3903b3c2,
  0xa7672661, 0xd06016f7, 0x4969474d, 0x3e6e77db, 0xaed16a4a, 0xd9d65adc,
  0x40df0b66, 0x37d83bf0, 0xa9bcae53, 0xdebb9ec5, 0x47b2cf7f, 0x30b5ffe9,
  0xbdbdf21c, 0xcabac28a, 0x53b39330, 0x24b4a3a6, 0xbad03605, 0xcdd70693,
  0x54de5729, 0x23d967bf, 0xb3667a2e, 0xc4614ab8, 0x5d681b02, 0x2a6f2b94,
  0xb40bbe37, 0xc30c8ea1, 0x5a05df1b, 0x2d02ef8d ]

def efCalcCrc32 (crc : UInt32) (buf : List UInt8) : UInt32 :=
  buf.foldl (fun (crc : UInt32) p => crc32Table.getD ((crc ^^^ p.toUInt32) &&& 0xff).toNat 0 ^^^ (crc >>> 8))
    (crc ^^^ 0xffffffff) ^^^ 0xffffffff

/-- What the cache knows a name by. -/
def nameCrc (name : Key) : UInt16 := (efCalcCrc32 0 name >>> 16).toUInt16

/-- The loop of `update_env_cache` for an address: the table behind it, and
unless it has returned the first free place and the least active one. -/
def updateEnvLoop (crc : UInt16) (addr : Addr) (i : Nat) (empty minActivity : Option Nat) (activity : UInt16) :
    List EnvCacheNode → List EnvCacheNode × Option (Option Nat × Option Nat)
  | [] => ([], some (empty, minActivity))
  | c :: cs =>
    if c.nameCrc = crc then ({ c with addr := some addr } :: cs, none)
    else if c.addr = none ∧ empty = none then
      let r := updateEnvLoop crc addr (i + 1) (some i) minActivity activity cs
      (c :: r.1, r.2)
    else if c.addr = none then
      let r := updateEnvLoop crc addr (i + 1) empty minActivity activity cs
      (c :: r.1, r.2)
    else
      let active := if 0 < c.active then c.active - 1 else c.active
      let r := if active < activity then updateEnvLoop crc addr (i + 1) empty (some i) active cs
        else updateEnvLoop crc addr (i + 1) empty minActivity activity cs
      ({ c with active } :: r.1, r.2)

/-- `update_env_cache` with an address. -/
def updateEnvCache (table : List EnvCacheNode) (name : Key) (addr : Addr) : List EnvCacheNode :=
  let r := updateEnvLoop (nameCrc name) addr 0 none none 0xffff table
  match r.2 with
  | some (some i, _) => r.1.set i ⟨nameCrc name, 0, some addr⟩
  | some (none, some i) => r.1.set i ⟨nameCrc name, 0, some addr⟩
  | _ => r.1

/-- `update_env_cache` with `FAILED_ADDR`: the name is taken out. -/
def dropEnvCache (table : List EnvCacheNode) (name : Key) : List EnvCacheNode :=
  match table.findIdx? (·.nameCrc = nameCrc name) with
  | some i => table.modify i fun c => { c with addr := none, active := 0 }
  | none => table

/-- `saved_name`: the bytes where the cache says the name is. -/
def Ef.savedName (s : Ef) (u : Stale) (a : Addr) : List UInt8 :=
  (((s.nodeAt a).map Node.text).getD [] ++ u.behind a).take envNameMax

/-- The loop of `get_env_from_cache`. -/
def getEnvLoop (u : Stale) (s : Ef) (name : Key) : List EnvCacheNode → Option (Addr × List EnvCacheNode)
  | [] => none
  | c :: cs =>
    match c.addr with
    | some a =>
      if c.nameCrc = nameCrc name ∧ strncmpEq name (s.savedName u a) name.length = true then
        some (a, { c with active := if 0xffff - 16 ≤ c.active then 0xffff else c.active + 16 } :: cs)
      else (getEnvLoop u s name cs).map fun r => (r.1, c :: r.2)
    | none => (getEnvLoop u s name cs).map fun r => (r.1, c :: r.2)

def getEnvFromCache (u : Stale) (s : Ef) (name : Key) : Option (Addr × List EnvCacheNode) :=
  getEnvLoop u s name s.envCacheTable

/-! ## Finding a node -/

/-- All nodes that `env_iterator` visits, with their addresses. -/
def Ef.visited (s : Ef) : List (Addr × Node) :=
  (List.finRange sectorNum).flatMap fun j =>
    if (s.sectors j).store = .storeUsing ∨ (s.sectors j).store = .storeFull then
      (s.found j).map fun n => (⟨j, n.off⟩, n)
    else []

/-- `env->name` after `read_env`: the words of the name, the rest as it was. -/
def nameField (field : List UInt8) (name : Key) : List UInt8 := padded name ++ field.drop (padded name).length

/-- `env_iterator` with `find_env_cb`. -/
def findLoop (key : Key) : List UInt8 → List (Addr × Node) → Option Addr
  | _, [] => none
  | field, (a, n) :: rest =>
    if n.status = .write ∧
        strncmpEq (nameField field n.name) key (max (UInt8.ofNat key.length).toNat n.name.length) = true then some a
    else findLoop key (nameField field n.name) rest

def findEnvNoCache (u : Stale) (key : Key) (s : Ef) : Option Addr := findLoop key u.name s.visited

def findEnv (u : Stale) (key : Key) (s : Ef) : Ef × Option Addr :=
  match getEnvFromCache u s key with
  | some (a, table) => ({ s with envCacheTable := table }, some a)
  | none =>
    match findEnvNoCache u key s with
    | some a => ({ s with envCacheTable := updateEnvCache s.envCacheTable key a }, some a)
    | none => (s, none)

/-! ## Allocation -/

/-- `update_sec_status`, and `is_full` where it is set. -/
def updateSecStatus (s : Ef) (m : SectorMetaData) (newEnvLen : Nat) : Ef × Option Bool :=
  match m.store with
  | .storeEmpty => (s.setSector m.addr { s.sectors m.addr with store := .storeUsing }, none)
  | .storeUsing =>
    if m.remain < secRemainThreshold ∨ (newEnvLen ≤ m.remain ∧ m.remain - newEnvLen < secRemainThreshold) then
      ({ s.setSector m.addr { s.sectors m.addr with store := .storeFull } with
        sectorCacheTable := updateSectorCache s.sectorCacheTable m.addr sectorSize }, some true)
    else (s, some false)
  | .storeFull => (s, none)

/-- `sector_statistics_cb`: the sectors of a status. -/
def Ef.count (s : Ef) (store : SectorStoreStatus) : Nat :=
  (List.finRange sectorNum).countP fun j => (s.sectors j).store = store

/-- `sector_iterator` with `alloc_env_cb`, over the sectors of a status. -/
def allocLoop (store : SectorStoreStatus) (envSize : Nat) : List (Fin sectorNum) → Ef → Ef × Option SectorMetaData
  | [], s => (s, none)
  | j :: js, s =>
    if (s.sectors j).store = store then
      let r := readSectorMetaData s j
      if envSize < r.2.remain ∧ (r.2.dirty = .dirtyFalse ∨ (r.2.dirty = .dirtyTrue ∧ r.1.gcRequest = false)) then
        (r.1, some r.2)
      else allocLoop store envSize js r.1
    else allocLoop store envSize js s

/-- `alloc_env`; the address is `emptyEnv` of the sector. -/
def allocEnv (s : Ef) (envSize : Nat) : Ef × Option SectorMetaData :=
  let r := if 0 < s.count .storeUsing then allocLoop .storeUsing envSize (List.finRange sectorNum) s else (s, none)
  if 0 < s.count .storeEmpty ∧ r.2 = none then
    if gcEmptySecThreshold < s.count .storeEmpty ∨ r.1.gcRequest = true then
      allocLoop .storeEmpty envSize (List.finRange sectorNum) r.1
    else ({ r.1 with gcRequest := true }, none)
  else r

/-! ## Deleting -/

/-- `del_env` of a node that has been found. Without a key the cache is left
alone: the source would take the length of a null pointer. -/
def delEnvAt (s : Ef) (key : Option Key) (a : Addr) (completeDel : Bool) : Ef :=
  let s :=
    if completeDel then
      { s.writeStatus a .deleted with
        envCacheTable :=
          match s.lastIsCompleteDel, key with
          | false, some key => dropEnvCache s.envCacheTable key
          | _, _ => s.envCacheTable
        lastIsCompleteDel := false }
    else { s.writeStatus a .preDelete with lastIsCompleteDel := true }
  if (s.sectors a.sector).dirty = .dirtyFalse then
    s.setSector a.sector { s.sectors a.sector with dirty := .dirtyTrue }
  else s

/-- `del_env` by the name. -/
def delEnv (u : Stale) (key : Key) (s : Ef) : Ef × EfErrCode :=
  match findEnv u key s with
  | (s, some a) => (delEnvAt s (some key) a true, .noErr)
  | (s, none) => (s, .envNameErr)

/-! ## Collection -/

/-- A node is written to the allocated place and becomes valid. -/
def Ef.create (s : Ef) (m : SectorMetaData) (name : Key) (value : Value) : Ef :=
  (s.writeNode m.addr ⟨m.emptyEnv, .preWrite, name, value⟩).writeStatus ⟨m.addr, m.emptyEnv⟩ .write

def moveEnv (s : Ef) (a : Addr) (n : Node) : Ef × EfErrCode :=
  let s := if n.status = .write then delEnvAt s none a false else s
  match allocEnv s n.len with
  | (s, none) => (s, .envFull)
  | (s, some m) =>
    let s := (updateSecStatus s m n.len).1.create m n.name n.value
    let s := { s with
      sectorCacheTable := updateSectorCache s.sectorCacheTable m.addr (m.emptyEnv + n.len)
      envCacheTable := updateEnvCache s.envCacheTable n.name ⟨m.addr, m.emptyEnv⟩ }
    (delEnvAt s none a true, .noErr)

def formatSector (s : Ef) (j : Fin sectorNum) : Ef :=
  { s.setSector j ⟨.storeEmpty, .dirtyFalse, []⟩ with
    sectorCacheTable := updateSectorCache s.sectorCacheTable j sectorSize }

/-- The loop of `do_gc`, over the nodes at `offs`; moving them away does not
change where the others are found. -/
def gcLoop (j : Fin sectorNum) : List Nat → Ef → Ef
  | [], s => s
  | off :: offs, s =>
    match s.nodeAt ⟨j, off⟩ with
    | some n =>
      if n.status = .write ∨ n.status = .preDelete then gcLoop j offs (moveEnv s ⟨j, off⟩ n).1 else gcLoop j offs s
    | none => gcLoop j offs s

def doGc (s : Ef) (j : Fin sectorNum) : Ef :=
  if (s.sectors j).dirty = .dirtyTrue ∨ (s.sectors j).dirty = .dirtyGc then
    let s := s.setSector j { s.sectors j with dirty := .dirtyGc }
    formatSector (gcLoop j ((s.found j).map Node.off) s) j
  else s

def gcCollect (s : Ef) : Ef :=
  let s := if s.count .storeEmpty ≤ gcEmptySecThreshold then (List.finRange sectorNum).foldl doGc s else s
  { s with gcRequest := false }

/-! ## Setting and getting -/

def newEnv (s : Ef) (envSize : Nat) : Ef × Option SectorMetaData :=
  match allocEnv s envSize with
  | (s, some m) => (s, some m)
  | (s, none) => if s.gcRequest then allocEnv (gcCollect s) envSize else (s, none)

/-- The sector of a new node in `create_env_blob`: none stands for the empty
address `FAILED_ADDR`, with which the sector is allocated there. -/
def sectorFor (s : Ef) (len : Nat) : Option SectorMetaData → Ef × Option SectorMetaData
  | some m => (s, some m)
  | none => newEnv s len

def createEnvBlob (s : Ef) (sector : Option SectorMetaData) (key : Key) (value : Value) : Ef × EfErrCode :=
  let len := envLen key.length value.length
  if envNameMax < key.length then (s, .envNameErr)
  else if sectorSize - sectorHdrDataSize < len then (s, .envFull)
  else
    match sectorFor s len sector with
    | (s, none) => (s, .envFull)
    | (s, some m) =>
      let r := updateSecStatus s m len
      let isFull := r.2 = some true
      let s := r.1.create m key value
      let s := { s with
        sectorCacheTable :=
          if isFull then s.sectorCacheTable else updateSectorCache s.sectorCacheTable m.addr (m.emptyEnv + len)
        envCacheTable := updateEnvCache s.envCacheTable key ⟨m.addr, m.emptyEnv⟩
        gcRequest := s.gcRequest || isFull }
      (s, .noErr)

/-- `set_env`; no value is a null pointer. -/
def setEnv (u : Stale) (key : Key) (value : Option Value) (s : Ef) : Ef × EfErrCode :=
  match value with
  | none => delEnv u key s
  | some value =>
    match newEnv s (envLen key.length value.length) with
    | (s, none) => (s, .envFull)
    | (s, some m) =>
      match findEnv u key s with
      | (s, none) =>
        let r := createEnvBlob s (some m) key value
        (if r.1.gcRequest then gcCollect r.1 else r.1, r.2)
      | (s, some a) =>
        let r := createEnvBlob (delEnvAt s (some key) a false) (some m) key value
        let s := if r.2 = .noErr then delEnvAt r.1 (some key) a true else r.1
        (if s.gcRequest then gcCollect s else s, r.2)

/-- `get_env`: the bytes read, and `*value_len` if it is written. -/
def getEnv (u : Stale) (key : Key) (bufLen : Nat) (s : Ef) : Ef × List UInt8 × Option Nat :=
  match findEnv u key s with
  | (s, some a) =>
    match s.nodeAt a with
    | some n => (s, n.value.take bufLen, some n.value.length)
    | none => (s, [], none)
  | (s, none) => (s, [], none)

/-! ## Start -/

/-- The static variables after a reset, and what `ef_env_init` does to the caches. -/
def Ef.powerOn (s : Ef) : Ef where
  sectors := s.sectors
  sectorCacheTable := List.replicate sectorCacheTableSize ⟨none, 0⟩
  envCacheTable := List.replicate envCacheTableSize ⟨0, 0, none⟩
  gcRequest := false
  lastIsCompleteDel := false

def verNumEnvName : Key := ascii "__ver_num__"

/-- `EF_ENV_VER_NUM`, as the four bytes of a `size_t`. -/
def efEnvVerNum : Value := [0, 0, 0, 0]

def efDefaultEnvItem : Nat := 10

/-- `ef_env`, with the bytes that its pointers lead to. -/
structure EfEnvItem where
  key : Key
  value : Value
  valueLen : Nat
  deriving DecidableEq, Repr

/-- `default_env_set` of `nv.c`: one item has an initialiser, the pointers of the others are null. -/
def defaultEnvSet : List (Option EfEnvItem) :=
  some ⟨ascii "SOFTWART_VERSION", ascii "v1.0.1" ++ [0], 7⟩ :: List.replicate (efDefaultEnvItem - 1) none

/-- What an item is written with; without a length it is a string. -/
def EfEnvItem.bytes (d : EfEnvItem) : Value :=
  if d.valueLen = 0 then d.value.takeWhile (· ≠ 0) else d.value.take d.valueLen

/-- The loop of `env_auto_update` over the default items. It is undefined at a
null pointer, of which `find_env` takes the length. -/
def addDefaults (u : Stale) : List (Option EfEnvItem) → Ef → Option Ef
  | [], s => some s
  | none :: _, _ => none
  | some d :: ds, s =>
    match findEnv u d.key s with
    | (s, some _) => addDefaults u ds s
    | (s, none) => addDefaults u ds (createEnvBlob s none d.key d.bytes).1

/-- `env_auto_update`. Fewer than four stored bytes leave a part of
`saved_ver_num` unset; they count as another number here. -/
def envAutoUpdate (u : Stale) (s : Ef) : Option Ef :=
  let r := getEnv u verNumEnvName 4 s
  if r.2.1 = [] then some (setEnv u verNumEnvName (some efEnvVerNum) r.1).1
  else if r.2.1 = efEnvVerNum then some r.1
  else (addDefaults u defaultEnvSet r.1).map fun s => (setEnv u verNumEnvName (some efEnvVerNum) s).1

/-! ## The functions of the module -/

/-- With `init_ok`. -/
structure EfEnv where
  ef : Ef
  initOk : Bool

/-- `ef_env_init` on sectors with headers and without interrupted nodes; it gives `EF_NO_ERR`. -/
def efEnvInit (u : Stale) (e : EfEnv) : Option EfEnv :=
  if e.initOk then some e else (envAutoUpdate u e.ef).map fun s => ⟨s, true⟩

/-- `ef_get_env_blob`: the bytes read, and `*saved_value_len` if it is written. -/
def efGetEnvBlob (u : Stale) (key : Key) (bufLen : Nat) (e : EfEnv) : EfEnv × List UInt8 × Option Nat :=
  if e.initOk then
    let r := getEnv u key bufLen e.ef
    ({ e with ef := r.1 }, r.2)
  else (e, [], none)

def efSetEnvBlob (u : Stale) (key : Key) (value : Option Value) (e : EfEnv) : EfEnv × EfErrCode :=
  if e.initOk then
    let r := setEnv u key value e.ef
    ({ e with ef := r.1 }, r.2)
  else (e, .envInitFailed)

def efDelEnv (u : Stale) (key : Key) (e : EfEnv) : EfEnv × EfErrCode :=
  if e.initOk then
    let r := delEnv u key e.ef
    ({ e with ef := r.1 }, r.2)
  else (e, .envInitFailed)

/-- A reset: the flash stays. -/
def EfEnv.powerOn (e : EfEnv) : EfEnv := ⟨e.ef.powerOn, false⟩

/-- All sectors formatted. -/
def Ef.formatted : Ef := Ef.powerOn
  { sectors := fun _ => ⟨.storeEmpty, .dirtyFalse, []⟩, sectorCacheTable := [], envCacheTable := []
    gcRequest := false, lastIsCompleteDel := false }

/-- The formatted flash after a reset. -/
def EfEnv.formatted : EfEnv := ⟨Ef.formatted, false⟩

end Petbox.Easyflash

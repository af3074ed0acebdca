import Statefeed.Library.BigEndian
import Statefeed.Library.Slots
import Statefeed.Library.Table
import Mathlib.Data.List.Sort

set_option autoImplicit false

namespace Statefeed

abbrev B256 := BitVec 256
abbrev U256 := BitVec 256
abbrev Address := BitVec 160
abbrev Bytes := List UInt8
abbrev Generation := Nat

def B256.toVec (hash : B256) : Bytes := BigEndian.encode 32 hash.toNat
def Address.toVec (address : Address) : Bytes := BigEndian.encode 20 address.toNat
def U256.toBeBytes (value : U256) : Bytes := BigEndian.encode 32 value.toNat
def U256.fromBeSlice (bytes : Bytes) : U256 := BitVec.ofNat 256 (BigEndian.decode bytes)

theorem U256.fromBeSlice_toBeBytes (value : U256) :
    U256.fromBeSlice (U256.toBeBytes value) = value := by
  have bound : value.toNat < 256 ^ 32 := value.isLt
  rw [U256.fromBeSlice, U256.toBeBytes, BigEndian.decode_encode, Nat.mod_eq_of_lt bound]
  rw [BitVec.ofNat_toNat, BitVec.setWidth_eq]

theorem B256.toVec_injective : Function.Injective B256.toVec := by
  intro left right same
  exact BitVec.eq_of_toNat_eq (BigEndian.encode_injective 32 left.isLt right.isLt same)

@[simp] theorem B256.length_toVec (hash : B256) : (B256.toVec hash).length = 32 := by
  simp [B256.toVec]

@[simp] theorem U256.length_toBeBytes (value : U256) : (U256.toBeBytes value).length = 32 := by
  simp [U256.toBeBytes]

structure WatchConfig where
  id : String
  address : Address
  slot : B256
deriving DecidableEq

structure WatchKey where
  keyId : Nat
  id : String
  address : Address
  slot : B256
deriving DecidableEq

structure SlotWatch where
  slot : U256
  keyId : Nat

structure AddressWatch where
  address : Address
  slots : List SlotWatch
  slotToKey : Table U256 Nat

def slotHashIndexThreshold : Nat := 8

-- The compiled tables are functions of the configured list, so no inconsistent set exists.
structure WatchSet where
  generation : Generation
  configured : List WatchConfig
deriving DecidableEq

namespace WatchSet

def compile (generation : Generation) (configured : List WatchConfig) : WatchSet :=
  ⟨generation, configured⟩

def keys (watchSet : WatchSet) : List WatchKey :=
  watchSet.configured.mapIdx fun index key =>
    { keyId := index % 2 ^ 32, id := key.id, address := key.address, slot := key.slot }

def len (watchSet : WatchSet) : Nat := watchSet.keys.length

-- `BTreeMap::entry(address).or_default().push(slot)` on entries sorted by address.
def pushGrouped (address : Address) (slot : SlotWatch) :
    List (Address × List SlotWatch) → List (Address × List SlotWatch)
  | [] => [(address, [slot])]
  | (first, slots) :: rest =>
    if address = first then (first, slots ++ [slot]) :: rest
    else if address < first then (address, [slot]) :: (first, slots) :: rest
    else (first, slots) :: pushGrouped address slot rest

def grouped (watchSet : WatchSet) : List (Address × List SlotWatch) :=
  watchSet.keys.foldl (fun groups key =>
    pushGrouped key.address
      { slot := U256.fromBeSlice (B256.toVec key.slot), keyId := key.keyId } groups) []

def addressWatch (address : Address) (slots : List SlotWatch) : AddressWatch :=
  let sorted := slots.insertionSort (fun left right => left.slot ≤ right.slot)
  { address
    slots := sorted
    slotToKey :=
      if sorted.length > slotHashIndexThreshold then
        sorted.foldl (fun index watched => index.insert watched.slot watched.keyId) ∅
      else ∅ }

def addresses (watchSet : WatchSet) : List AddressWatch :=
  watchSet.grouped.map fun group => addressWatch group.1 group.2

def addressToIndex (watchSet : WatchSet) : Table Address Nat :=
  (watchSet.addresses.zipIdx).foldl (fun index entry => index.insert entry.1.address entry.2) ∅

def address (watchSet : WatchSet) (address : Address) : Option AddressWatch :=
  (watchSet.addressToIndex.get address).bind fun index => watchSet.addresses[index]?

@[simp] theorem length_keys (watchSet : WatchSet) :
    watchSet.keys.length = watchSet.configured.length := by
  simp [keys]

end WatchSet

structure SlotChange where
  keyId : Nat
  newValue : U256
deriving DecidableEq

abbrev BlockChanges := List SlotChange

-- `PackedValues::get`: value `keyId` occupies bytes `32 * keyId .. 32 * keyId + 32`.
def packedValue (bytes : Bytes) (keyId : Nat) : Option U256 :=
  if 32 * keyId + 32 ≤ bytes.length then
    some (U256.fromBeSlice (Slots.slot 32 bytes keyId))
  else none

end Statefeed

import Statefeed.Library.Join
import Statefeed.Model.Config
import Statefeed.Model.Publisher

set_option autoImplicit false

namespace Statefeed

open List

def expectedChange (bundle : BundleState) (keyId : Nat) (key : WatchConfig) : BlockChanges :=
  match bundle.get key.address with
  | none => []
  | some account =>
    match account.storage.get key.slot with
    | some slot =>
      if slot.originalValue ≠ slot.presentValue ∨ account.wasDestroyed then
        [{ keyId, newValue := slot.presentValue }]
      else []
    | none => if account.wasDestroyed then [{ keyId, newValue := 0 }] else []

-- Key ids are 32-bit numbers.
def expectedChanges (configured : List WatchConfig) (bundle : BundleState) : BlockChanges :=
  (configured.mapIdx fun index key => expectedChange bundle (index % 2 ^ 32) key).flatten

namespace WatchSet

def places (groups : List (Address × List SlotWatch)) : List (Address × SlotWatch) :=
  groups.flatMap fun group => group.2.map (Prod.mk group.1)

def place (key : WatchKey) : Address × SlotWatch :=
  (key.address, { slot := U256.fromBeSlice (B256.toVec key.slot), keyId := key.keyId })

theorem places_pushGrouped (address : Address) (slot : SlotWatch)
    (groups : List (Address × List SlotWatch)) :
    places (pushGrouped address slot groups) ~ (address, slot) :: places groups := by
  induction groups with
  | nil => exact Perm.refl _
  | cons group rest ih =>
    obtain ⟨first, slots⟩ := group
    unfold pushGrouped
    split
    · next same =>
      subst same
      have split : places ((address, slots ++ [slot]) :: rest) =
          slots.map (Prod.mk address) ++ (address, slot) :: places rest := by
        simp [places]
      rw [split]
      exact perm_middle
    · split
      · exact Perm.refl _
      · have later := ih.append_left (slots.map (Prod.mk first))
        exact later.trans perm_middle

theorem mem_pushGrouped {address other : Address} {slot : SlotWatch}
    {groups : List (Address × List SlotWatch)}
    (member : other ∈ (pushGrouped address slot groups).map Prod.fst) :
    other = address ∨ other ∈ groups.map Prod.fst := by
  induction groups with
  | nil => exact .inl (by simpa [pushGrouped] using member)
  | cons group rest ih =>
    obtain ⟨first, slots⟩ := group
    unfold pushGrouped at member
    split at member
    · exact .inr member
    · split at member
      · simpa using member
      · rcases List.mem_cons.mp member with same | later
        · exact .inr (by simp [same])
        · rcases ih later with same | inside
          · exact .inl same
          · exact .inr (List.mem_cons_of_mem _ inside)

theorem sorted_pushGrouped {address : Address} {slot : SlotWatch}
    {groups : List (Address × List SlotWatch)}
    (sorted : (groups.map Prod.fst).Pairwise (· < ·)) :
    ((pushGrouped address slot groups).map Prod.fst).Pairwise (· < ·) := by
  induction groups with
  | nil => simp [pushGrouped]
  | cons group rest ih =>
    obtain ⟨first, slots⟩ := group
    obtain ⟨least, tail⟩ := List.pairwise_cons.mp sorted
    unfold pushGrouped
    split
    · exact sorted
    · next different =>
      split
      · next below =>
        refine List.pairwise_cons.mpr ⟨fun other member => ?_, sorted⟩
        rcases List.mem_cons.mp member with rfl | later
        · exact below
        · exact BitVec.lt_trans below (least other later)
      · next above =>
        refine List.pairwise_cons.mpr ⟨fun other member => ?_, ih tail⟩
        rcases mem_pushGrouped member with rfl | later
        · exact BitVec.lt_of_le_ne (BitVec.not_lt.mp above) (Ne.symm different)
        · exact least other later

theorem places_grouped (watchSet : WatchSet) : places watchSet.grouped ~ watchSet.keys.map place := by
  have loop (keys : List WatchKey) (groups : List (Address × List SlotWatch)) :
      places (keys.foldl (fun groups key => pushGrouped key.address
        { slot := U256.fromBeSlice (B256.toVec key.slot), keyId := key.keyId } groups) groups) ~
        keys.map place ++ places groups := by
    induction keys generalizing groups with
    | nil => exact Perm.refl _
    | cons key rest ih =>
      refine (ih _).trans ?_
      refine ((places_pushGrouped _ _ groups).append_left _).trans ?_
      exact perm_middle
  have all := loop watchSet.keys []
  rwa [show places [] = [] from rfl, List.append_nil] at all

theorem sorted_grouped (watchSet : WatchSet) :
    (watchSet.grouped.map Prod.fst).Pairwise (· < ·) := by
  unfold grouped
  generalize startEq : ([] : List (Address × List SlotWatch)) = start
  have sorted : (start.map Prod.fst).Pairwise (· < ·) := by simp [← startEq]
  clear startEq
  induction watchSet.keys generalizing start with
  | nil => exact sorted
  | cons key rest ih => exact ih _ (sorted_pushGrouped sorted)

theorem nodup_grouped (watchSet : WatchSet) : (watchSet.grouped.map Prod.fst).Nodup :=
  watchSet.sorted_grouped.imp BitVec.ne_of_lt

section Compiled

variable (watchSet : WatchSet)

theorem map_address_addresses :
    watchSet.addresses.map AddressWatch.address = watchSet.grouped.map Prod.fst := by
  unfold addresses
  rw [List.map_map]
  rfl

theorem nodup_addresses : (watchSet.addresses.map AddressWatch.address).Nodup := by
  rw [map_address_addresses]
  exact watchSet.nodup_grouped

theorem places_addresses :
    (watchSet.addresses.flatMap fun watch => watch.slots.map (Prod.mk watch.address)) ~
      watchSet.keys.map place := by
  refine Perm.trans ?_ watchSet.places_grouped
  unfold addresses
  rw [List.flatMap_map]
  apply Perm.flatMap_left
  intro group _
  exact (List.perm_insertionSort _ _).map _

def Distinct : Prop := (watchSet.configured.map fun key => (key.address, key.slot)).Nodup

variable {watchSet} {watch : AddressWatch}

theorem nodup_slots (distinct : watchSet.Distinct) (member : watch ∈ watchSet.addresses) :
    (watch.slots.map SlotWatch.slot).Nodup := by
  have coordinates : ((watchSet.keys.map place).map fun entry => (entry.1, entry.2.slot)).Nodup := by
    have same : ((watchSet.keys.map place).map fun entry => (entry.1, entry.2.slot)) =
        watchSet.configured.map fun key => (key.address, key.slot) := by
      apply List.ext_getElem?
      intro index
      simp only [keys, place, List.getElem?_map, List.getElem?_mapIdx, Option.map_map,
        Function.comp_def]
      congr 1
      funext key
      exact Prod.ext rfl (U256.fromBeSlice_toBeBytes key.slot)
    rw [same]
    exact distinct
  have grouped := (watchSet.places_addresses.map fun entry => (entry.1, entry.2.slot)).nodup_iff.mpr
    coordinates
  rw [List.map_flatMap] at grouped
  have own := (List.nodup_flatMap.mp grouped).1 watch member
  rw [List.map_map] at own
  have split : (watch.slots.map ((fun entry : Address × SlotWatch => (entry.1, entry.2.slot)) ∘
      Prod.mk watch.address)) = (watch.slots.map SlotWatch.slot).map (Prod.mk watch.address) := by
    rw [List.map_map]
    rfl
  rw [split] at own
  exact own.of_map _

theorem sorted_slots (distinct : watchSet.Distinct) (member : watch ∈ watchSet.addresses) :
    (watch.slots.map SlotWatch.slot).Pairwise (· < ·) := by
  have nodup := nodup_slots distinct member
  obtain ⟨group, _, rfl⟩ := List.mem_map.mp member
  have ordered : (addressWatch group.1 group.2).slots.Pairwise fun left right =>
      left.slot ≤ right.slot := by
    have total : Std.Total fun left right : SlotWatch => left.slot ≤ right.slot :=
      ⟨fun left right => BitVec.le_total left.slot right.slot⟩
    have trans : IsTrans SlotWatch fun left right => left.slot ≤ right.slot :=
      ⟨fun _ _ _ => BitVec.le_trans⟩
    exact List.pairwise_insertionSort _ _
  rw [List.nodup_iff_pairwise_ne, List.pairwise_map] at nodup
  rw [List.pairwise_map]
  exact (ordered.and nodup).imp fun both => BitVec.lt_of_le_ne both.1 both.2

end Compiled

end WatchSet

section Lookup

variable {slots : List SlotWatch} {watched : SlotWatch} {slotKey : U256}

theorem binarySearchSlot_of_mem (sorted : (slots.map SlotWatch.slot).Pairwise (· < ·))
    (member : watched ∈ slots) : binarySearchSlot slots watched.slot = some watched := by
  induction slots with
  | nil => cases member
  | cons first rest ih =>
    obtain ⟨least, tail⟩ := List.pairwise_cons.mp sorted
    rcases List.mem_cons.mp member with rfl | later
    · simp [binarySearchSlot, BitVec.lt_irrefl]
    · have below : first.slot < watched.slot := least _ (List.mem_map_of_mem later)
      have skipped : binarySearchSlot (first :: rest) watched.slot =
          binarySearchSlot rest watched.slot := by
        simp [binarySearchSlot, below]
      rw [skipped]
      exact ih tail later

theorem binarySearchSlot_of_not_mem (missing : slotKey ∉ slots.map SlotWatch.slot) :
    binarySearchSlot slots slotKey = none := by
  unfold binarySearchSlot
  split
  · next watched rest dropped =>
    apply if_neg
    rintro rfl
    have inside : watched ∈ slots.dropWhile fun other => other.slot < watched.slot := by
      rw [dropped]
      exact List.mem_cons_self
    exact missing (List.mem_map_of_mem ((List.dropWhile_suffix _).subset inside))
  · rfl

/-- The key id of a watched slot, through the hash index if there is one. -/
def lookupKey (watch : AddressWatch) (slotKey : U256) : Option Nat :=
  if watch.slotToKey.size = 0 then (binarySearchSlot watch.slots slotKey).map SlotWatch.keyId
  else watch.slotToKey.get slotKey

variable {watchSet : WatchSet} {watch : AddressWatch}

theorem lookupKey_eq_search (distinct : watchSet.Distinct) (member : watch ∈ watchSet.addresses)
    (slotKey : U256) :
    lookupKey watch slotKey = (binarySearchSlot watch.slots slotKey).map SlotWatch.keyId := by
  have nodup := WatchSet.nodup_slots distinct member
  have sorted := WatchSet.sorted_slots distinct member
  unfold lookupKey
  split
  · rfl
  · next indexed =>
    have built : watch.slotToKey = Table.collect SlotWatch.slot SlotWatch.keyId watch.slots ∅ := by
      obtain ⟨group, _, rfl⟩ := List.mem_map.mp member
      unfold WatchSet.addressWatch at indexed ⊢
      dsimp only at indexed ⊢
      split
      · rfl
      · next small =>
        rw [if_neg small] at indexed
        exact absurd rfl indexed
    rw [built]
    by_cases present : slotKey ∈ watch.slots.map SlotWatch.slot
    · obtain ⟨watched, inside, rfl⟩ := List.mem_map.mp present
      rw [Table.get_collect_of_mem _ _ _ nodup inside, binarySearchSlot_of_mem sorted inside]
      rfl
    · rw [Table.get_collect_of_not_mem _ _ _ _ present, binarySearchSlot_of_not_mem present]
      rfl

end Lookup

section Scans

variable {watchSet : WatchSet} {watch : AddressWatch}

theorem extractStoredSlot_eq_search (distinct : watchSet.Distinct)
    (member : watch ∈ watchSet.addresses) (account : BundleAccount) (slotKey : U256) :
    extractStoredSlot watch account slotKey =
      match account.storage.get slotKey with
      | none => []
      | some slot =>
        if slot.isChanged then
          match (binarySearchSlot watch.slots slotKey).map SlotWatch.keyId with
          | some keyId => [{ keyId, newValue := slot.presentValue }]
          | none => []
        else [] := by
  rw [← lookupKey_eq_search distinct member slotKey]
  rfl

theorem storage_scan (distinct : watchSet.Distinct) (member : watch ∈ watchSet.addresses)
    {account : BundleAccount} (survived : account.wasDestroyed = false) :
    account.storage.keys.flatMap (extractStoredSlot watch account) ~
      watch.slots.flatMap (extractWatchedSlot account) := by
  have sorted := WatchSet.sorted_slots distinct member
  have searched := extractStoredSlot_eq_search distinct member account
  apply Join.scan_perm SlotWatch.slot _ account.storage.keys_nodup
    (WatchSet.nodup_slots distinct member)
  · intro watched inside _
    rw [searched, binarySearchSlot_of_mem sorted inside]
    unfold extractWatchedSlot
    cases account.storage.get watched.slot <;> simp [survived]
  · intro slotKey _ missing
    rw [searched, binarySearchSlot_of_not_mem missing]
    cases account.storage.get slotKey <;> simp
  · intro watched _ missing
    rw [Table.mem_keys] at missing
    unfold extractWatchedSlot
    cases present : account.storage.get watched.slot with
    | none => simp [survived]
    | some slot => simp [present] at missing

theorem account_scan (distinct : watchSet.Distinct) (member : watch ∈ watchSet.addresses)
    (account : BundleAccount) :
    extractAccountChanges watch account ~ watch.slots.flatMap (extractWatchedSlot account) := by
  unfold extractAccountChanges
  split
  · exact Perm.refl _
  · next scanStorage =>
    rw [not_or] at scanStorage
    exact storage_scan distinct member (by simpa using scanStorage.1)

variable (watchSet) (bundle : BundleState)

def scanWatchedAddresses : BlockChanges :=
  watchSet.addresses.flatMap fun watch =>
    match bundle.get watch.address with
    | some account => extractAccountChanges watch account
    | none => []

def scanBundleAddresses : BlockChanges :=
  bundle.keys.flatMap fun address =>
    match bundle.get address, watchSet.address address with
    | some account, some watch => extractAccountChanges watch account
    | _, _ => []

omit bundle in
theorem map_address_zipIdx :
    (watchSet.addresses.zipIdx.map fun entry => entry.1.address) =
      watchSet.addresses.map AddressWatch.address := by
  apply List.ext_getElem?
  intro index
  simp [Function.comp_def]

omit bundle in
theorem addressToIndex_eq :
    watchSet.addressToIndex = Table.collect (fun entry : AddressWatch × Nat => entry.1.address)
      Prod.snd watchSet.addresses.zipIdx ∅ := rfl

variable {watchSet bundle}

theorem address_of_mem (member : watch ∈ watchSet.addresses) :
    watchSet.address watch.address = some watch := by
  obtain ⟨index, listed⟩ := List.mem_iff_getElem?.mp member
  have indexed : (watch, index) ∈ watchSet.addresses.zipIdx :=
    List.mk_mem_zipIdx_iff_getElem?.mpr listed
  have distinct := watchSet.nodup_addresses
  rw [← map_address_zipIdx] at distinct
  unfold WatchSet.address
  rw [addressToIndex_eq, Table.get_collect_of_mem _ _ _ distinct indexed]
  exact listed

theorem address_of_not_mem {address : Address}
    (missing : address ∉ watchSet.addresses.map AddressWatch.address) :
    watchSet.address address = none := by
  rw [← map_address_zipIdx] at missing
  unfold WatchSet.address
  rw [addressToIndex_eq, Table.get_collect_of_not_mem _ _ _ _ missing]
  rfl

theorem bundle_scan (watchSet : WatchSet) (bundle : BundleState) :
    scanBundleAddresses watchSet bundle ~ scanWatchedAddresses watchSet bundle := by
  apply Join.scan_perm AddressWatch.address _ bundle.keys_nodup watchSet.nodup_addresses
  · intro watch inside _
    rw [address_of_mem inside]
    cases bundle.get watch.address <;> rfl
  · intro address _ missing
    rw [address_of_not_mem missing]
    cases bundle.get address <;> rfl
  · intro watch _ missing
    rw [Table.mem_keys] at missing
    cases present : bundle.get watch.address with
    | none => rfl
    | some account => simp [present] at missing

theorem expectedChange_eq (bundle : BundleState) (key : WatchKey) :
    expectedChange bundle key.keyId { id := key.id, address := key.address, slot := key.slot } =
      match bundle.get (WatchSet.place key).1 with
      | some account => extractWatchedSlot account (WatchSet.place key).2
      | none => [] := by
  have slot : U256.fromBeSlice (B256.toVec key.slot) = key.slot :=
    U256.fromBeSlice_toBeBytes key.slot
  unfold expectedChange WatchSet.place extractWatchedSlot
  simp only [slot]
  cases bundle.get key.address with
  | none => rfl
  | some account =>
    dsimp only
    cases account.storage.get key.slot with
    | none => rfl
    | some stored => simp [StorageSlot.isChanged]

theorem expectedChanges_eq (watchSet : WatchSet) (bundle : BundleState) :
    expectedChanges watchSet.configured bundle = (watchSet.keys.map WatchSet.place).flatMap
      fun entry =>
        match bundle.get entry.1 with
        | some account => extractWatchedSlot account entry.2
        | none => [] := by
  rw [List.flatMap_map]
  have each (key : WatchKey) := expectedChange_eq bundle key
  simp only [← each]
  rw [List.flatMap_def]
  unfold expectedChanges
  congr 1
  apply List.ext_getElem?
  intro index
  simp [WatchSet.keys, Function.comp_def]

theorem watched_scan (distinct : watchSet.Distinct) (bundle : BundleState) :
    scanWatchedAddresses watchSet bundle ~ expectedChanges watchSet.configured bundle := by
  rw [expectedChanges_eq]
  refine Perm.trans ?_ (watchSet.places_addresses.flatMap_right _)
  rw [List.flatMap_assoc]
  apply Perm.flatMap_left
  intro watch member
  rw [List.flatMap_map]
  dsimp only
  cases bundle.get watch.address with
  | none => simp
  | some account => exact account_scan distinct member account

theorem extractChanges_perm (distinct : watchSet.Distinct) (bundle : BundleState) :
    extractChanges watchSet bundle ~ expectedChanges watchSet.configured bundle := by
  unfold extractChanges
  split
  · exact watched_scan distinct bundle
  · exact (bundle_scan watchSet bundle).trans (watched_scan distinct bundle)

theorem keyId_of_slot (member : watch ∈ watchSet.addresses) {slot : SlotWatch}
    (listed : slot ∈ watch.slots) : slot.keyId < watchSet.len := by
  have placed : (watch.address, slot) ∈
      watchSet.addresses.flatMap fun watch => watch.slots.map (Prod.mk watch.address) :=
    List.mem_flatMap.mpr ⟨watch, member, List.mem_map_of_mem listed⟩
  obtain ⟨key, present, same⟩ := List.mem_map.mp (watchSet.places_addresses.mem_iff.mp placed)
  have keyId : key.keyId = slot.keyId := congrArg (·.2.keyId) same
  obtain ⟨index, found⟩ := List.getElem?_of_mem present
  have inside := (List.getElem?_eq_some_iff.mp found).1
  unfold WatchSet.keys at found
  rw [List.getElem?_mapIdx, Option.map_eq_some_iff] at found
  obtain ⟨_, _, rfl⟩ := found
  rw [← keyId]
  exact Nat.lt_of_le_of_lt (Nat.mod_le _ _) inside

theorem slot_of_lookupKey (member : watch ∈ watchSet.addresses) {slotKey : U256} {keyId : Nat}
    (found : lookupKey watch slotKey = some keyId) : ∃ slot ∈ watch.slots, slot.keyId = keyId := by
  unfold lookupKey at found
  split at found
  · obtain ⟨slot, searched, same⟩ := Option.map_eq_some_iff.mp found
    refine ⟨slot, ?_, same⟩
    unfold binarySearchSlot at searched
    split at searched
    · next first rest dropped =>
      split at searched
      · cases searched
        apply (List.dropWhile_suffix fun other : SlotWatch => other.slot < slotKey).subset
        rw [dropped]
        exact List.mem_cons_self
      · cases searched
    · cases searched
  · obtain ⟨group, _, rfl⟩ := List.mem_map.mp member
    unfold WatchSet.addressWatch at found
    dsimp only at found
    split at found
    · rcases Table.get_collect_cases _ _ SlotWatch.slot SlotWatch.keyId found with absent | present
      · cases absent
      · exact present
    · cases found

theorem slot_of_extract (member : watch ∈ watchSet.addresses) {account : BundleAccount}
    {change : SlotChange} (extracted : change ∈ extractAccountChanges watch account) :
    ∃ slot ∈ watch.slots, slot.keyId = change.keyId := by
  unfold extractAccountChanges at extracted
  split at extracted
  · obtain ⟨slot, listed, produced⟩ := List.mem_flatMap.mp extracted
    refine ⟨slot, listed, ?_⟩
    unfold extractWatchedSlot at produced
    split at produced
    · split at produced
      · cases List.mem_singleton.mp produced
        rfl
      · cases produced
    · split at produced
      · cases List.mem_singleton.mp produced
        rfl
      · cases produced
  · obtain ⟨slotKey, _, produced⟩ := List.mem_flatMap.mp extracted
    unfold extractStoredSlot at produced
    split at produced
    · cases produced
    · split at produced
      · dsimp only at produced
        split at produced
        · next keyId found =>
          cases List.mem_singleton.mp produced
          exact slot_of_lookupKey member found
        · cases produced
      · cases produced

theorem keyId_of_extractChanges {bundle : BundleState} {change : SlotChange}
    (extracted : change ∈ extractChanges watchSet bundle) : change.keyId < watchSet.len := by
  have scanned : change ∈ scanWatchedAddresses watchSet bundle := by
    unfold extractChanges at extracted
    split at extracted
    · exact extracted
    · exact (bundle_scan watchSet bundle).mem_iff.mp extracted
  obtain ⟨watch, member, produced⟩ := List.mem_flatMap.mp scanned
  split at produced
  · obtain ⟨slot, listed, same⟩ := slot_of_extract member produced
    rw [← same]
    exact keyId_of_slot member listed
  · cases produced

end Scans

section Order

variable {bundle : BundleState} {configured : List WatchConfig}

theorem expectedChange_keyIds (bundle : BundleState) (keyId : Nat) (key : WatchConfig) :
    (expectedChange bundle keyId key).map SlotChange.keyId = [] ∨
      (expectedChange bundle keyId key).map SlotChange.keyId = [keyId] := by
  unfold expectedChange
  split
  · exact .inl rfl
  · split
    · split
      · exact .inr rfl
      · exact .inl rfl
    · split
      · exact .inr rfl
      · exact .inl rfl

theorem mem_expectedChange {keyId : Nat} {key : WatchConfig} {change : SlotChange}
    (member : change ∈ expectedChange bundle keyId key) : change.keyId = keyId := by
  have listed := List.mem_map_of_mem (f := SlotChange.keyId) member
  rcases expectedChange_keyIds bundle keyId key with none | one
  · rw [none] at listed
    cases listed
  · rw [one] at listed
    exact List.mem_singleton.mp listed

theorem mem_expectedChanges {change : SlotChange} :
    change ∈ expectedChanges configured bundle ↔
      ∃ (index : Nat) (key : WatchConfig), configured[index]? = some key ∧
        change ∈ expectedChange bundle (index % 2 ^ 32) key := by
  unfold expectedChanges
  rw [List.mem_flatten]
  constructor
  · rintro ⟨piece, listed, inside⟩
    obtain ⟨index, found⟩ := List.mem_iff_getElem?.mp listed
    rw [List.getElem?_mapIdx, Option.map_eq_some_iff] at found
    obtain ⟨key, found, rfl⟩ := found
    exact ⟨index, key, found, inside⟩
  · rintro ⟨index, key, found, inside⟩
    refine ⟨_, List.mem_iff_getElem?.mpr ⟨index, ?_⟩, inside⟩
    rw [List.getElem?_mapIdx, found, Option.map_some]

theorem mem_expectedChanges_of_fits (fits : configured.length ≤ 2 ^ 32) {change : SlotChange} :
    change ∈ expectedChanges configured bundle ↔
      ∃ key, configured[change.keyId]? = some key ∧
        change ∈ expectedChange bundle change.keyId key := by
  have narrow {index : Nat} {key : WatchConfig} (found : configured[index]? = some key) :
      index % 2 ^ 32 = index := by
    obtain ⟨inside, _⟩ := List.getElem?_eq_some_iff.mp found
    exact Nat.mod_eq_of_lt (by omega)
  rw [mem_expectedChanges]
  constructor
  · rintro ⟨index, key, found, inside⟩
    have same := mem_expectedChange inside
    rw [narrow found] at same inside
    rw [same]
    exact ⟨key, found, inside⟩
  · rintro ⟨key, found, inside⟩
    exact ⟨change.keyId, key, found, by rwa [narrow found]⟩

theorem nodup_expectedChanges (fits : configured.length ≤ 2 ^ 32) :
    ((expectedChanges configured bundle).map SlotChange.keyId).Nodup := by
  unfold expectedChanges
  rw [List.map_flatten, List.nodup_flatten]
  have piece {keyIds : List Nat} {index : Nat}
      (found : ((configured.mapIdx fun index key => expectedChange bundle (index % 2 ^ 32) key).map
        (List.map SlotChange.keyId))[index]? = some keyIds) : keyIds = [] ∨ keyIds = [index] := by
    simp only [List.getElem?_map, List.getElem?_mapIdx, Option.map_map,
      Option.map_eq_some_iff] at found
    obtain ⟨key, listed, rfl⟩ := found
    obtain ⟨inside, _⟩ := List.getElem?_eq_some_iff.mp listed
    have narrow : index % 2 ^ 32 = index := Nat.mod_eq_of_lt (by omega)
    rw [narrow]
    exact expectedChange_keyIds bundle index key
  constructor
  · intro keyIds member
    obtain ⟨index, found⟩ := List.mem_iff_getElem?.mp member
    rcases piece found with rfl | rfl <;> simp
  · rw [List.pairwise_iff_getElem]
    intro left right leftInside rightInside before
    have leftPiece := piece (List.getElem?_eq_getElem leftInside)
    have rightPiece := piece (List.getElem?_eq_getElem rightInside)
    rcases leftPiece with empty | one
    · rw [empty]
      exact List.disjoint_nil_left _
    · rcases rightPiece with empty | other
      · rw [empty]
        exact List.disjoint_nil_right _
      · rw [one, other]
        simpa using before.ne'

theorem setBit_comm (bitmap : Bytes) (index other : Nat) :
    setBit (setBit bitmap index) other = setBit (setBit bitmap other) index := by
  unfold setBit
  by_cases same : index / 8 = other / 8
  · rw [same, List.modify_modify_eq, List.modify_modify_eq]
    congr 1
    funext byte
    simp only [Function.comp, UInt8.or_assoc]
    congr 1
    exact UInt8.or_comm _ _
  · exact List.modify_modify_ne _ _ _ same

def applyChange (change : SlotChange) (state : Bytes × Bytes) : Bytes × Bytes :=
  if chunk state.1 change.keyId = U256.toBeBytes change.newValue then state
  else (replaceChunk state.1 change.keyId (U256.toBeBytes change.newValue),
    setBit state.2 change.keyId)

variable {count : Nat} {state : Bytes × Bytes} {change other : SlotChange}

theorem applyChanges_cons (rest : BlockChanges) (inside : change.keyId < count)
    (whole : state.1.length = 32 * count) :
    applyChanges (change :: rest) state.1 state.2 =
      applyChanges rest (applyChange change state).1 (applyChange change state).2 := by
  rw [applyChanges, if_pos (by omega)]
  unfold applyChange
  dsimp only
  split <;> rfl

theorem length_applyChange (inside : change.keyId < count) (whole : state.1.length = 32 * count) :
    (applyChange change state).1.length = 32 * count := by
  unfold applyChange
  split
  · exact whole
  · rw [replaceChunk, Slots.length_setSlot (by omega) (U256.length_toBeBytes _), whole]

theorem chunk_applyChange (inside : change.keyId < count) (whole : state.1.length = 32 * count)
    {position : Nat} (apart : position ≠ change.keyId) :
    chunk (applyChange change state).1 position = chunk state.1 position := by
  unfold applyChange
  split
  · rfl
  · exact Slots.slot_setSlot_other (by omega) (U256.length_toBeBytes _) apart

theorem applyChange_comm (inside : change.keyId < count) (insideOther : other.keyId < count)
    (whole : state.1.length = 32 * count) (apart : other.keyId ≠ change.keyId) :
    applyChange other (applyChange change state) = applyChange change (applyChange other state) := by
  have kept := chunk_applyChange inside whole apart
  have keptOther := chunk_applyChange insideOther whole apart.symm
  have left : applyChange other (applyChange change state) =
      if chunk state.1 other.keyId = U256.toBeBytes other.newValue then applyChange change state
      else (replaceChunk (applyChange change state).1 other.keyId (U256.toBeBytes other.newValue),
        setBit (applyChange change state).2 other.keyId) := by
    rw [← kept]
    rfl
  have right : applyChange change (applyChange other state) =
      if chunk state.1 change.keyId = U256.toBeBytes change.newValue then applyChange other state
      else (replaceChunk (applyChange other state).1 change.keyId (U256.toBeBytes change.newValue),
        setBit (applyChange other state).2 change.keyId) := by
    rw [← keptOther]
    rfl
  rw [left, right]
  unfold applyChange
  split_ifs
  · rfl
  · rfl
  · rfl
  · refine Prod.ext ?_ (setBit_comm _ _ _)
    exact Slots.setSlot_comm whole (by omega) (by omega) (U256.length_toBeBytes _)
      (U256.length_toBeBytes _) apart

theorem applyChanges_perm {changes others : BlockChanges} (perm : changes ~ others)
    (distinct : (changes.map SlotChange.keyId).Nodup)
    (inside : ∀ change ∈ changes, change.keyId < count) (whole : state.1.length = 32 * count) :
    applyChanges changes state.1 state.2 = applyChanges others state.1 state.2 := by
  induction perm generalizing state with
  | nil => rfl
  | cons change _ ih =>
    rw [List.map_cons, List.nodup_cons] at distinct
    have fits := inside change List.mem_cons_self
    rw [applyChanges_cons _ fits whole, applyChanges_cons _ fits whole]
    apply ih distinct.2 _ (length_applyChange fits whole)
    exact fun other member => inside other (List.mem_cons_of_mem _ member)
  | swap first second rest =>
    have apart : first.keyId ≠ second.keyId := by
      simp only [List.map_cons, List.nodup_cons, List.mem_cons, not_or] at distinct
      exact Ne.symm distinct.1.1
    have fitsFirst := inside first (by simp)
    have fitsSecond := inside second (by simp)
    rw [applyChanges_cons _ fitsSecond whole,
      applyChanges_cons _ fitsFirst (length_applyChange fitsSecond whole),
      applyChanges_cons _ fitsFirst whole,
      applyChanges_cons _ fitsSecond (length_applyChange fitsFirst whole),
      applyChange_comm fitsSecond fitsFirst whole apart]
  | trans first second ihFirst ihSecond =>
    rw [ihFirst distinct inside whole]
    apply ihSecond _ _ whole
    · exact (first.map _).nodup_iff.mp distinct
    · exact fun change member => inside change (first.mem_iff.mpr member)

theorem applyChanges_returns (changes : BlockChanges)
    (inside : ∀ change ∈ changes, change.keyId < count) (whole : state.1.length = 32 * count) :
    ∃ applied, applyChanges changes state.1 state.2 = .ok applied := by
  induction changes generalizing state with
  | nil => exact ⟨state, rfl⟩
  | cons change rest ih =>
    have fits := inside change List.mem_cons_self
    rw [applyChanges_cons _ fits whole]
    apply ih _ (length_applyChange fits whole)
    exact fun other member => inside other (List.mem_cons_of_mem _ member)

end Order

/-- Extraction equals its specification, whichever sides it scans, and its result may be applied
to a projection in any order. -/
theorem extraction_exact (generation : Generation) (configured : List WatchConfig)
    (distinct : (configured.map fun key => (key.address, key.slot)).Nodup)
    (bundle : BundleState) :
    extractChanges (.compile generation configured) bundle ~ expectedChanges configured bundle ∧
    scanBundleAddresses (.compile generation configured) bundle ~
      scanWatchedAddresses (.compile generation configured) bundle ∧
    (∀ watch ∈ (WatchSet.compile generation configured).addresses,
      (∀ account : BundleAccount, account.wasDestroyed = false →
        account.storage.keys.flatMap (extractStoredSlot watch account) ~
          watch.slots.flatMap (extractWatchedSlot account)) ∧
      ∀ slotKey, lookupKey watch slotKey =
        (binarySearchSlot watch.slots slotKey).map SlotWatch.keyId) ∧
    (configured.length ≤ 2 ^ 32 →
      ((extractChanges (.compile generation configured) bundle).map SlotChange.keyId).Nodup ∧
      (∀ change, change ∈ extractChanges (.compile generation configured) bundle ↔
        ∃ key, configured[change.keyId]? = some key ∧
          change ∈ expectedChange bundle change.keyId key) ∧
      ∀ (changes : BlockChanges) (values bitmap : Bytes),
        changes ~ extractChanges (.compile generation configured) bundle →
        values.length = 32 * configured.length →
        ∃ applied, applyChanges changes values bitmap = .ok applied ∧
          applyChanges (extractChanges (.compile generation configured) bundle) values bitmap =
            .ok applied) := by
  have coordinates : (WatchSet.compile generation configured).Distinct := distinct
  have extracted := extractChanges_perm coordinates bundle
  refine ⟨extracted, bundle_scan _ bundle, fun watch member => ⟨fun account survived => ?_, ?_⟩, ?_⟩
  · exact storage_scan coordinates member survived
  · exact lookupKey_eq_search coordinates member
  intro fits
  have members (change : SlotChange) :
      change ∈ extractChanges (.compile generation configured) bundle ↔
        ∃ key, configured[change.keyId]? = some key ∧
          change ∈ expectedChange bundle change.keyId key :=
    extracted.mem_iff.trans (mem_expectedChanges_of_fits fits)
  have unique := (extracted.map SlotChange.keyId).nodup_iff.mpr (nodup_expectedChanges fits)
  refine ⟨unique, members, fun changes values bitmap reordered whole => ?_⟩
  have inside : ∀ change ∈ changes, change.keyId < configured.length := by
    intro change member
    obtain ⟨key, found, _⟩ := (members change).mp (reordered.mem_iff.mp member)
    exact (List.getElem?_eq_some_iff.mp found).1
  obtain ⟨applied, returned⟩ :=
    @applyChanges_returns _ (values, bitmap) changes inside whole
  refine ⟨applied, returned, ?_⟩
  rw [← returned]
  exact (@applyChanges_perm _ (values, bitmap) _ _ reordered
    ((reordered.map _).nodup_iff.mpr unique) inside whole).symm

namespace Sample

def watchedPair : List WatchConfig :=
  [{ id := "balance", address := 7, slot := 3 }, { id := "supply", address := 7, slot := 1 }]

def changedBundle : BundleState :=
  (∅ : BundleState).insert 7
    { wasDestroyed := false
      storage := ((∅ : Table U256 StorageSlot).insert 3
        { originalValue := 4, presentValue := 5 }).insert 1 { originalValue := 2, presentValue := 2 } }

end Sample

theorem extraction_exact_sample :
    extractChanges (.compile 1 Sample.watchedPair) Sample.changedBundle =
        [{ keyId := 0, newValue := 5 }] ∧
      extractChanges (.compile 1 Sample.watchedPair) Sample.changedBundle ~
        expectedChanges Sample.watchedPair Sample.changedBundle ∧
      ((extractChanges (.compile 1 Sample.watchedPair) Sample.changedBundle).map
        SlotChange.keyId).Nodup := by
  have exact := extraction_exact 1 Sample.watchedPair (by decide) Sample.changedBundle
  exact ⟨by decide +kernel, exact.1, (exact.2.2.2 (by decide)).1⟩

end Statefeed

import Mathlib.Data.Finset.Sort
import StreamWeb.App.PacketFeed
import StreamWeb.Lib.GroupBy

/-!
# The device table of the status

`/api/status` folds the decode results into one row for each device. Some
fields keep their first value, some the last, some the last one that is known,
and the sequence numbers are appended. `deviceRow` says what a row shows of the
entries of one device, and `apiStatus_devices_iff` that the table shows this of
every device, in whatever order the devices' entries arrived.
-/

namespace StreamWeb

/-- A device's dictionary in the loop; the last two keys may be missing. -/
structure Device where
  ntwId : Int
  ntwIdHex : String
  phyVer : Int
  chipset : String
  maxEnergyDB : ℚ
  seqNums : List Int
  lastSeen : String
  freqDeltaHz : Option ℚ := none
  payloadB64 : Option String := none

/-- A row of the response. -/
structure DeviceRow where
  ntwId : Int
  ntwIdHex : String
  phyVer : Int
  chipset : String
  maxEnergyDB : ℚ
  seqNums : List Int
  lastSeen : String
  freqDeltaHz : Option ℚ
  payloadB64 : String
  deriving DecidableEq

/-- The payload an entry assigns, if it assigns one. -/
def DecodeEntry.assignedB64 (r : DecodeEntry) : Except Py.Error (Option String) :=
  let pb := r.payloadBytes.getD 0
  match r.payloadVal with
  | some pv =>
    if 0 < pb then (Py.toBytes pv pb.toNat).map fun bytes => some (Py.b64encode bytes)
    else if pb = 0 then .ok (some "") else .ok none
  | none => if pb = 0 then .ok (some "") else .ok none

namespace Device

/-- The dictionary the first entry of a device makes. -/
def new (r : DecodeEntry) : Device where
  ntwId := r.ntwId
  ntwIdHex := r.ntwIdHex
  phyVer := r.phyVer
  chipset := r.chipset
  maxEnergyDB := r.energyDB
  seqNums := []
  lastSeen := r.timestamp

/-- The assignments of every entry. -/
def assign (d : Device) (r : DecodeEntry) (payload : Option String) : Device :=
  { d with
    maxEnergyDB := r.energyDB
    seqNums := d.seqNums ++ [r.seqNum]
    lastSeen := r.timestamp
    freqDeltaHz := r.freqDeltaHz.or d.freqDeltaHz
    payloadB64 := payload.or d.payloadB64 }

/-- What is left of the dictionary behind the loop. -/
def row (d : Device) : DeviceRow where
  ntwId := d.ntwId
  ntwIdHex := d.ntwIdHex
  phyVer := d.phyVer
  chipset := d.chipset
  maxEnergyDB := d.maxEnergyDB
  seqNums := d.seqNums.rtake 10
  lastSeen := d.lastSeen
  freqDeltaHz := d.freqDeltaHz
  payloadB64 := d.payloadB64.getD ""

end Device

/-- One turn of the loop over `decode_results`. -/
def visitEntry (devices : List (Int × Device)) (r : DecodeEntry) :
    Except Py.Error (List (Int × Device)) :=
  r.assignedB64.map fun payload =>
    let d := (devices.lookup r.ntwId).getD (Device.new r)
    Dict.set devices r.ntwId (d.assign r payload)

/-- `GET /api/status`, the rows under `devices`. -/
def apiStatusDevices (decodeResults : List DecodeEntry) : Except Py.Error (List DeviceRow) :=
  (decodeResults.foldlM visitEntry []).map fun devices =>
    (devices.map fun d => d.2.row).insertionSort fun d d' => d.ntwId ≤ d'.ntwId

/-! ## Its purpose -/

/-- What an entry says of the payload: that it is empty, its bytes, or nothing. -/
def DecodeEntry.knownB64 (r : DecodeEntry) : Option String :=
  let pb := r.payloadBytes.getD 0
  if pb = 0 then some ""
  else if 0 < pb then r.payloadVal.map fun pv => Py.b64encode (Py.bigEndian pb.toNat pv.toNat)
  else none

/-- The row of a device with the entries `first :: rest`. -/
def deviceRow (first : DecodeEntry) (rest : List DecodeEntry) : DeviceRow where
  ntwId := first.ntwId
  ntwIdHex := first.ntwIdHex
  phyVer := first.phyVer
  chipset := first.chipset
  maxEnergyDB := ((first :: rest).getLast (List.cons_ne_nil _ _)).energyDB
  seqNums := ((first :: rest).map DecodeEntry.seqNum).rtake 10
  lastSeen := ((first :: rest).getLast (List.cons_ne_nil _ _)).timestamp
  freqDeltaHz := ((first :: rest).filterMap DecodeEntry.freqDeltaHz).getLast?
  payloadB64 := ((first :: rest).filterMap DecodeEntry.knownB64).getLast?.getD ""

/-- The entries of a device. -/
def entriesOf (decodeResults : List DecodeEntry) (ntwId : Int) : List DecodeEntry :=
  decodeResults.filter (·.ntwId = ntwId)

/-- The row of an identifier, if it has entries. -/
def rowOf (decodeResults : List DecodeEntry) (ntwId : Int) : Option DeviceRow :=
  match entriesOf decodeResults ntwId with
  | [] => none
  | first :: rest => some (deviceRow first rest)

/-- The devices, each once, in order. -/
def deviceIds (decodeResults : List DecodeEntry) : List Int :=
  (decodeResults.map DecodeEntry.ntwId).toFinset.sort (· ≤ ·)

/-- One row for each device, in the order of the identifiers. -/
def deviceTable (decodeResults : List DecodeEntry) : List DeviceRow :=
  (deviceIds decodeResults).filterMap (rowOf decodeResults)

/-! ## One device -/

theorem foldl_assign (es : List DecodeEntry) (d : Device) :
    es.foldl (fun d e => d.assign e e.knownB64) d =
      { d with
        maxEnergyDB := (es.getLast?.map DecodeEntry.energyDB).getD d.maxEnergyDB
        seqNums := d.seqNums ++ es.map DecodeEntry.seqNum
        lastSeen := (es.getLast?.map DecodeEntry.timestamp).getD d.lastSeen
        freqDeltaHz := (es.filterMap DecodeEntry.freqDeltaHz).getLast?.or d.freqDeltaHz
        payloadB64 := (es.filterMap DecodeEntry.knownB64).getLast?.or d.payloadB64 } := by
  induction es using List.reverseRecOn with
  | nil => simp
  | append_singleton es e ih =>
    rw [List.foldl_append, ih, List.foldl_cons, List.foldl_nil]
    cases freq : e.freqDeltaHz <;> cases payload : e.knownB64 <;>
      simp [Device.assign, List.filterMap_append, freq, payload]

/-- What a device's entries leave in its row. -/
theorem row_accumulated (first : DecodeEntry) (rest : List DecodeEntry) :
    (GroupBy.accumulated Device.new (fun d e => d.assign e e.knownB64) (first :: rest)).map Device.row
      = some (deviceRow first rest) := by
  have last := List.getLast?_eq_some_getLast (List.cons_ne_nil first rest)
  rw [GroupBy.accumulated, foldl_assign, last]
  simp [Device.row, Device.new, deviceRow]

/-! ## The loop -/

theorem assignedB64_ok_iff (e : DecodeEntry) (payload : Option String) :
    e.assignedB64 = .ok payload ↔ e.Fits ∧ payload = e.knownB64 := by
  unfold DecodeEntry.assignedB64 DecodeEntry.Fits DecodeEntry.knownB64
  generalize e.payloadBytes.getD 0 = pb
  rcases Int.lt_trichotomy pb 0 with negative | rfl | positive
  · have other : ¬0 < pb ∧ pb ≠ 0 := by omega
    cases e.payloadVal <;> simp [other, eq_comm]
  · cases e.payloadVal <;> simp [eq_comm]
  · have other : pb ≠ 0 := by omega
    cases e.payloadVal with
    | none => simp [other, positive, eq_comm]
    | some pv =>
      simp only [positive, other, if_true, if_false, Option.some.injEq, forall_eq', true_implies,
        Option.map_some]
      cases converted : Py.toBytes pv pb.toNat with
      | error err =>
        have misfit : ¬(pb.toNat ≤ Py.ssizeMax ∧ 0 ≤ pv ∧ pv.toNat < 256 ^ pb.toNat) := by
          intro fits
          rw [Py.toBytes_eq_ok_iff.2 ⟨fits, rfl⟩] at converted
          cases converted
        simp only [misfit, Except.map, reduceCtorEq, false_and]
      | ok bytes =>
        obtain ⟨fits, rfl⟩ := Py.toBytes_eq_ok_iff.1 converted
        simp only [fits, Except.map, Except.ok.injEq, and_self, true_and, eq_comm]

/-- The step of a device's fold. -/
abbrev assignKnown (d : Device) (e : DecodeEntry) : Device := d.assign e e.knownB64

/-- The dictionary of the loop, as the groups of the devices. -/
abbrev devicesOf (es : List DecodeEntry) : List (Int × Device) :=
  es.foldl (GroupBy.visit DecodeEntry.ntwId Device.new assignKnown) []

theorem visitEntry_ok_iff (devices devices' : List (Int × Device)) (e : DecodeEntry) :
    visitEntry devices e = .ok devices' ↔
      e.Fits ∧ devices' = GroupBy.visit DecodeEntry.ntwId Device.new assignKnown devices e := by
  unfold visitEntry
  constructor
  · intro visited
    cases assigned : e.assignedB64 with
    | error err =>
      rw [assigned] at visited
      cases visited
    | ok payload =>
      obtain ⟨fits, rfl⟩ := (assignedB64_ok_iff e payload).1 assigned
      rw [assigned] at visited
      cases visited
      exact ⟨fits, rfl⟩
  · intro ⟨fits, next⟩
    subst next
    rw [(assignedB64_ok_iff e e.knownB64).2 ⟨fits, rfl⟩]
    rfl

/-- **The loop** returns when every payload fits, with the groups of the devices. -/
theorem foldlM_visitEntry_ok_iff (es : List DecodeEntry) (devices devices' : List (Int × Device)) :
    es.foldlM visitEntry devices = .ok devices' ↔
      (∀ e ∈ es, e.Fits) ∧
        devices' = es.foldl (GroupBy.visit DecodeEntry.ntwId Device.new assignKnown) devices := by
  induction es generalizing devices with
  | nil => simp [pure, Except.pure, eq_comm]
  | cons e es ih =>
    rw [List.foldlM_cons, List.forall_mem_cons, List.foldl_cons]
    cases visited : visitEntry devices e with
    | error err =>
      have misfit : ¬e.Fits := by
        intro fits
        rw [(visitEntry_ok_iff devices _ e).2 ⟨fits, rfl⟩] at visited
        cases visited
      simp [bind, Except.bind, misfit]
    | ok next =>
      obtain ⟨fits, rfl⟩ := (visitEntry_ok_iff devices next e).1 visited
      simp [bind, Except.bind, fits, ih]

/-! ## The table -/

theorem mem_deviceIds {es : List DecodeEntry} {ntwId : Int} :
    ntwId ∈ deviceIds es ↔ ntwId ∈ es.map DecodeEntry.ntwId := by
  rw [deviceIds, Finset.mem_sort, List.mem_toFinset]

theorem nodup_deviceIds (es : List DecodeEntry) : (deviceIds es).Nodup := Finset.sort_nodup _ _

/-- The identifiers depend on nothing but which there are. -/
theorem deviceIds_congr {es es' : List DecodeEntry}
    (same : ∀ ntwId, ntwId ∈ es.map DecodeEntry.ntwId ↔ ntwId ∈ es'.map DecodeEntry.ntwId) :
    deviceIds es = deviceIds es' := by
  have ids : (es.map DecodeEntry.ntwId).toFinset = (es'.map DecodeEntry.ntwId).toFinset := by
    ext ntwId
    rw [List.mem_toFinset, List.mem_toFinset, same]
  rw [deviceIds, deviceIds, ids]

/-- A row of the table is under its own identifier. -/
theorem rowOf_ntwId {es : List DecodeEntry} {ntwId : Int} {row : DeviceRow}
    (shown : rowOf es ntwId = some row) : row.ntwId = ntwId := by
  unfold rowOf at shown
  split at shown
  · cases shown
  · rename_i first rest entries
    cases shown
    have mem : first ∈ entriesOf es ntwId := by rw [entries]; exact List.mem_cons_self
    simpa [deviceRow] using (List.mem_filter.1 mem).2

theorem rowOf_isSome {es : List DecodeEntry} {ntwId : Int} :
    (rowOf es ntwId).isSome ↔ ntwId ∈ es.map DecodeEntry.ntwId := by
  have entries : entriesOf es ntwId = [] ↔ ntwId ∉ es.map DecodeEntry.ntwId := by
    simp [entriesOf, List.filter_eq_nil_iff]
  unfold rowOf
  split
  · rename_i empty
    simpa using entries.1 empty
  · rename_i first rest found
    rw [← not_iff_not, ← entries, found]
    simp

/-- The loop's dictionary holds what the table shows. -/
theorem rowOf_of_mem {es : List DecodeEntry} {entry : Int × Device} (mem : entry ∈ devicesOf es) :
    rowOf es entry.1 = some entry.2.row := by
  have folded := GroupBy.mem_foldl_visit.1 mem
  unfold rowOf entriesOf
  unfold GroupBy.itemsOf at folded
  split
  · rename_i empty
    rw [empty] at folded
    cases folded
  · rename_i first rest entries
    rw [entries] at folded
    rw [← row_accumulated, folded, Option.map_some]

theorem rows_devicesOf (es : List DecodeEntry) :
    ((devicesOf es).map fun d => d.2.row) =
      ((devicesOf es).map Prod.fst).filterMap (rowOf es) := by
  rw [List.filterMap_map, ← List.filterMap_eq_map]
  apply List.filterMap_congr
  intro entry mem
  exact (rowOf_of_mem mem).symm

theorem keys_perm (es : List DecodeEntry) :
    ((devicesOf es).map Prod.fst).Perm (deviceIds es) := by
  rw [List.perm_ext_iff_of_nodup (GroupBy.nodup_keys es) (nodup_deviceIds es)]
  intro ntwId
  rw [GroupBy.mem_keys, mem_deviceIds]

theorem deviceTable_pairwise (es : List DecodeEntry) :
    (deviceTable es).Pairwise fun d d' => d.ntwId ≤ d'.ntwId := by
  apply (Finset.pairwise_sort _ _).filterMap
  intro a b ordered row shown row' shown'
  rw [rowOf_ntwId shown, rowOf_ntwId shown']
  exact ordered

/-- Sorting brings the rows into the table's order: no two have one identifier. -/
theorem sorted_rows (es : List DecodeEntry) :
    (((devicesOf es).map fun d => d.2.row).insertionSort fun d d' => d.ntwId ≤ d'.ntwId) =
      deviceTable es := by
  have same : ((devicesOf es).map fun d => d.2.row).Perm (deviceTable es) := by
    rw [rows_devicesOf]
    exact (keys_perm es).filterMap _
  have own : ∀ row ∈ deviceTable es, rowOf es row.ntwId = some row := by
    intro row mem
    obtain ⟨ntwId, _, shown⟩ := List.mem_filterMap.1 mem
    rw [rowOf_ntwId shown, shown]
  refine List.Perm.eq_of_pairwise ?_ (List.pairwise_insertionSort _ _) (deviceTable_pairwise es)
    ((List.perm_insertionSort _ _).trans same)
  intro d d' mem mem' below above
  have ids : d.ntwId = d'.ntwId := le_antisymm below above
  have shown := own d (same.subset ((List.mem_insertionSort _).1 mem))
  rw [ids, own d' mem'] at shown
  exact (Option.some.inj shown).symm

theorem apiStatusDevices_ok_iff {es : List DecodeEntry} {rows : List DeviceRow} :
    apiStatusDevices es = .ok rows ↔ (∀ e ∈ es, e.Fits) ∧ rows = deviceTable es := by
  unfold apiStatusDevices
  constructor
  · intro served
    cases folded : es.foldlM visitEntry [] with
    | error err =>
      rw [folded] at served
      cases served
    | ok devices =>
      obtain ⟨fits, rfl⟩ := (foldlM_visitEntry_ok_iff es [] devices).1 folded
      rw [folded] at served
      cases served
      exact ⟨fits, sorted_rows es⟩
  · intro ⟨fits, table⟩
    subst table
    rw [(foldlM_visitEntry_ok_iff es [] (devicesOf es)).2 ⟨fits, rfl⟩, ← sorted_rows es]
    rfl

/-! ## The order of the devices' entries -/

theorem mem_entriesOf {es : List DecodeEntry} {e : DecodeEntry} :
    e ∈ es ↔ e ∈ entriesOf es e.ntwId := by
  simp [entriesOf]

theorem deviceTable_congr {es es' : List DecodeEntry}
    (same : ∀ ntwId, entriesOf es ntwId = entriesOf es' ntwId) : deviceTable es = deviceTable es' := by
  have rows : rowOf es = rowOf es' := by
    funext ntwId
    unfold rowOf
    rw [same]
  have ids : deviceIds es = deviceIds es' := by
    apply deviceIds_congr
    intro ntwId
    rw [← rowOf_isSome, ← rowOf_isSome, rows]
  unfold deviceTable
  rw [rows, ids]

/-- The identifiers of the rows: each device once. -/
theorem deviceTable_ntwIds (es : List DecodeEntry) :
    (deviceTable es).map DeviceRow.ntwId = deviceIds es := by
  unfold deviceTable
  rw [List.map_filterMap]
  conv_rhs => rw [← List.filterMap_some (l := deviceIds es)]
  apply List.filterMap_congr
  intro ntwId mem
  rw [mem_deviceIds, ← rowOf_isSome] at mem
  obtain ⟨row, shown⟩ := Option.isSome_iff_exists.1 mem
  rw [shown, Option.map_some, rowOf_ntwId shown]

/-- **The device table.** The request answers exactly when every payload fits its number of bytes,
and then with the table: a row for each identifier, in order, that shows what the entries of this
device say, so that histories with the same entries for each device give the same rows. -/
theorem apiStatus_devices_iff (es : List DecodeEntry) :
    (∀ rows, apiStatusDevices es = .ok rows ↔ (∀ e ∈ es, e.Fits) ∧ rows = deviceTable es) ∧
      (deviceTable es).map DeviceRow.ntwId = deviceIds es ∧
      ∀ es', (∀ ntwId, entriesOf es ntwId = entriesOf es' ntwId) →
        ∀ rows, apiStatusDevices es = .ok rows ↔ apiStatusDevices es' = .ok rows := by
  refine ⟨fun rows => apiStatusDevices_ok_iff, deviceTable_ntwIds es, ?_⟩
  intro es' same rows
  have fits : (∀ e ∈ es, e.Fits) ↔ ∀ e ∈ es', e.Fits := by
    constructor
    · intro all e mem
      apply all
      rw [mem_entriesOf, same]
      exact mem_entriesOf.1 mem
    · intro all e mem
      apply all
      rw [mem_entriesOf, ← same]
      exact mem_entriesOf.1 mem
  rw [apiStatusDevices_ok_iff, apiStatusDevices_ok_iff, fits, deviceTable_congr same]

def otherEntry : DecodeEntry := { feedEntry none none with ntwId := 9, ntwIdHex := "0x9" }

/-- An entry of another device in front of one of this device, or behind it. -/
theorem apiStatus_devices_swapped :
    apiStatusDevices [otherEntry, feedEntry (some 5) (some 1)]
        = .ok (deviceTable [otherEntry, feedEntry (some 5) (some 1)]) ↔
      apiStatusDevices [feedEntry (some 5) (some 1), otherEntry]
        = .ok (deviceTable [otherEntry, feedEntry (some 5) (some 1)]) := by
  refine (apiStatus_devices_iff [otherEntry, feedEntry (some 5) (some 1)]).2.2 _ ?_ _
  intro ntwId
  by_cases here : (9 : Int) = ntwId
  · subst here
    rfl
  · by_cases feed : (7 : Int) = ntwId
    · subst feed
      rfl
    · simp [entriesOf, otherEntry, feedEntry, here, feed]

/-- A value of two bytes reported as one: no row is shown. -/
theorem apiStatus_devices_misfit :
    apiStatusDevices [feedEntry (some 256) (some 1)]
        = .error (.overflowError "int too big to convert") ∧
      apiStatusDevices [feedEntry (some 256) (some 1)]
        ≠ .ok (deviceTable [feedEntry (some 256) (some 1)]) := by
  have raised : apiStatusDevices [feedEntry (some 256) (some 1)]
      = .error (.overflowError "int too big to convert") := by rfl
  refine ⟨raised, ?_⟩
  rw [raised]
  intro same
  cases same

end StreamWeb

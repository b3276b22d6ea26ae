import StreamWeb.App.DeviceRows
import StreamWeb.App.PacketFeed
import StreamWeb.Py.Rounding

/-!
# The error-correction averages of the status

`GET /api/status` writes each chipset's average into the row of the chipset's
statistics. The copy it makes of the table is shallow, so the averages stay
behind in `state.chipset_stats` and meet the next request, which writes only
those of chipsets with rated entries. `RatesKept` is the invariant: what stays behind
is the average of the entries that are still there. `rates_shown` follows it
through the runs.
-/

namespace StreamWeb

/-- What an entry counts with. -/
def DecodeEntry.rsCorrPct (r : DecodeEntry) : Option ℚ := do
  let n ← r.pduNCorr
  let total ← r.numPduSymbols
  if total = 0 then none else some (100 * n / total)

/-- The rated entries of named chipsets. -/
def rated (decodeResults : List DecodeEntry) : List (String × ℚ) :=
  decodeResults.filterMap fun r => if r.chipset = "" then none else r.rsCorrPct.map (Prod.mk r.chipset)

/-- `rs_by_chipset` -/
def rsByChipset (decodeResults : List DecodeEntry) : List (String × List ℚ) :=
  (rated decodeResults).foldl (GroupBy.visit Prod.fst (fun _ => []) fun pcts r => pcts ++ [r.2]) []

/-- `round(sum(pcts) / len(pcts), 1)` -/
def avgRsCorrPct (pcts : List ℚ) : ℚ := Py.roundTo 1 (pcts.sum / pcts.length)

/-- `cs_stats[chip]["avg_rs_corr_pct"] = ...`, if there is such a chipset. -/
def installRate (csStats : List (String × Py.Dict)) (item : String × List ℚ) : List (String × Py.Dict) :=
  match csStats.lookup item.1 with
  | some row => Dict.set csStats item.1 (Dict.set row "avg_rs_corr_pct" (.float (avgRsCorrPct item.2)))
  | none => csStats

/-- The keys of the response that are made of the entries. -/
structure StatusReply where
  devices : List DeviceRow
  nUniqueDevices : ℕ
  chipsetStats : List (String × Py.Dict)

/-- `GET /api/status`: the loop over the devices may raise; the averages are written into the rows of the
state's own table. -/
def apiStatus (s : SharedState) : SharedState × Except Py.Error StatusReply :=
  match apiStatusDevices s.decodeResults with
  | .error err => (s, .error err)
  | .ok devices =>
    let csStats := (rsByChipset s.decodeResults).foldl installRate s.chipsetStats
    ({ s with chipsetStats := csStats }, .ok ⟨devices, devices.length, csStats⟩)

inductive StatusStep where
  | drain (r : WorkerResult)
  | poll
  | reset
  | status

namespace StatusStep

def step (s : SharedState) : StatusStep → SharedState
  | .drain r => s.drainResult r
  | .poll => (apiPackets s).1
  | .reset => s.apiReset
  | .status => (apiStatus s).1

def run (steps : List StatusStep) : SharedState := steps.foldl step {}

end StatusStep

/-! ## Its purpose -/

/-- The rates of a chipset. -/
def ratesOf (decodeResults : List DecodeEntry) (chip : String) : List ℚ :=
  ((rated decodeResults).filter (·.1 = chip)).map Prod.snd

/-- The average a chipset's row should show. -/
def shownRate (decodeResults : List DecodeEntry) (chip : String) : Option Py.Val :=
  match ratesOf decodeResults chip with
  | [] => none
  | pcts => some (.float (avgRsCorrPct pcts))

/-- A message of the workers brings no averages of its own, and no entries without statistics. -/
structure WorkerResult.Fresh (r : WorkerResult) : Prop where
  rows : ∀ chip row, (r.chipsetStats.getD []).lookup chip = some row → row.lookup "avg_rs_corr_pct" = none
  counted : r.decodeEntries.getD [] ≠ [] → r.chipsetStats.getD [] ≠ []

/-! ## One request -/

theorem lookup_rsByChipset (decodeResults : List DecodeEntry) (chip : String) :
    (rsByChipset decodeResults).lookup chip =
      if ratesOf decodeResults chip = [] then none else some (ratesOf decodeResults chip) := by
  have grown : ∀ (xs : List (String × ℚ)) (pcts : List ℚ),
      xs.foldl (fun pcts (r : String × ℚ) => pcts ++ [r.2]) pcts = pcts ++ xs.map Prod.snd := by
    intro xs
    induction xs with
    | nil => simp
    | cons x xs ih => simp [ih]
  rw [rsByChipset, GroupBy.lookup_foldl_visit, ratesOf, ← GroupBy.itemsOf]
  cases GroupBy.itemsOf Prod.fst (rated decodeResults) chip with
  | nil => rfl
  | cons x xs => simp [GroupBy.accumulated, grown]

/-- What the loop makes of a row. -/
theorem lookup_foldl_installRate {items : List (String × List ℚ)} (distinct : (items.map Prod.fst).Nodup)
    (csStats : List (String × Py.Dict)) (chip : String) :
    (items.foldl installRate csStats).lookup chip =
      (csStats.lookup chip).map fun row => (items.lookup chip).elim row fun pcts =>
        Dict.set row "avg_rs_corr_pct" (.float (avgRsCorrPct pcts)) := by
  induction items generalizing csStats with
  | nil => simp
  | cons item items ih =>
    obtain ⟨key, pcts⟩ := item
    rw [List.map_cons, List.nodup_cons] at distinct
    rw [List.foldl_cons, ih distinct.2, installRate]
    dsimp only
    by_cases here : chip = key
    · subst here
      have absent : items.lookup chip = none := by
        rw [List.lookup_eq_none_iff]
        intro e mem
        apply bne_iff_ne.2
        intro same
        have key : e.1 ∈ items.map Prod.fst := List.mem_map_of_mem mem
        rw [← same] at key
        exact distinct.1 key
      rw [List.lookup_cons_self, absent]
      cases found : csStats.lookup chip with
      | none => rw [found]; rfl
      | some row => simp
    · have apart : (chip == key) = false := by simpa using here
      rw [List.lookup_cons, apart]
      cases csStats.lookup key with
      | none => rfl
      | some row =>
        dsimp only
        rw [Dict.lookup_set_of_ne here]

theorem nodup_rsByChipset (decodeResults : List DecodeEntry) :
    ((rsByChipset decodeResults).map Prod.fst).Nodup := GroupBy.nodup_keys _

/-- A row behind the loop: the average of its chipset's entries, or what it had. -/
theorem lookup_apiStatus {s : SharedState} {reply : StatusReply} (answered : (apiStatus s).2 = .ok reply)
    {chip : String} {row : Py.Dict} (shown : reply.chipsetStats.lookup chip = some row) :
    ∃ old, s.chipsetStats.lookup chip = some old ∧
      row.lookup "avg_rs_corr_pct" = (shownRate s.decodeResults chip).or (old.lookup "avg_rs_corr_pct") := by
  unfold apiStatus at answered
  split at answered
  · cases answered
  · cases answered
    rw [lookup_foldl_installRate (nodup_rsByChipset _), lookup_rsByChipset] at shown
    obtain ⟨old, found, rfl⟩ := Option.map_eq_some_iff.1 shown
    refine ⟨old, found, ?_⟩
    unfold shownRate
    cases ratesOf s.decodeResults chip with
    | nil => rfl
    | cons pct pcts => simp

theorem apiStatus_state {s : SharedState} {reply : StatusReply} (answered : (apiStatus s).2 = .ok reply) :
    (apiStatus s).1 = { s with chipsetStats := reply.chipsetStats } := by
  unfold apiStatus at answered ⊢
  split at answered
  · cases answered
  · cases answered
    rfl

/-! ## The runs -/

/-- What a row has kept is the average of the entries that are there. -/
def RatesKept (s : SharedState) : Prop :=
  ∀ chip row, s.chipsetStats.lookup chip = some row →
    row.lookup "avg_rs_corr_pct" = none ∨ row.lookup "avg_rs_corr_pct" = shownRate s.decodeResults chip

/-- **One request**: with what was kept, every row shows what it should. -/
theorem RatesKept.shows {s : SharedState} (kept : RatesKept s) {reply : StatusReply}
    (answered : (apiStatus s).2 = .ok reply) {chip : String} {row : Py.Dict}
    (shown : reply.chipsetStats.lookup chip = some row) :
    row.lookup "avg_rs_corr_pct" = shownRate s.decodeResults chip := by
  obtain ⟨old, found, rate⟩ := lookup_apiStatus answered shown
  rw [rate]
  rcases kept chip old found with nothing | same
  · rw [nothing, Option.or_none]
  · rw [same, Option.or_self]

theorem RatesKept.step {s : SharedState} (kept : RatesKept s) {e : StatusStep}
    (fresh : ∀ r, e = .drain r → r.Fresh) : RatesKept (StatusStep.step s e) := by
  cases e with
  | drain r =>
    obtain ⟨rows, counted⟩ := fresh r rfl
    intro chip row found
    unfold StatusStep.step SharedState.drainResult at found ⊢
    dsimp only at found ⊢
    by_cases without : r.chipsetStats.getD [] = []
    · have no_entries : r.decodeEntries.getD [] = [] := by
        by_contra some_entries
        exact counted some_entries without
      rw [without] at found
      rw [no_entries]
      exact kept chip row found
    · rw [if_neg (by simpa using without)] at found
      exact .inl (rows chip row found)
  | poll => exact kept
  | reset =>
    intro chip row found
    cases found
  | status =>
    unfold StatusStep.step
    cases answered : (apiStatus s).2 with
    | error err =>
      have same : (apiStatus s).1 = s := by
        unfold apiStatus at answered ⊢
        split at answered
        · rfl
        · cases answered
      rwa [same]
    | ok reply =>
      rw [apiStatus_state answered]
      intro chip row found
      exact .inr (kept.shows answered found)

theorem kept_run (steps : List StatusStep) (fresh : ∀ r, .drain r ∈ steps → r.Fresh) :
    RatesKept (StatusStep.run steps) := by
  induction steps using List.reverseRecOn with
  | nil =>
    intro chip row found
    cases found
  | append_singleton steps e ih =>
    rw [StatusStep.run, List.foldl_append]
    apply RatesKept.step (ih fun r mem => fresh r (List.mem_append_left _ mem))
    rintro r rfl
    exact fresh r (by simp)

/-- What a step does to the two lists. -/
def StatusStep.feed? : StatusStep → Option FeedEvent
  | .drain r => some (.drain r)
  | .poll => some .poll
  | .reset => some .reset
  | .status => none

/-- The entries a status is made of. -/
def currentEntries (steps : List StatusStep) : List DecodeEntry :=
  (sinceReset (steps.filterMap StatusStep.feed?)).rtake 200

theorem apiStatus_lists (s : SharedState) :
    (apiStatus s).1.packetFeed = s.packetFeed ∧ (apiStatus s).1.decodeResults = s.decodeResults := by
  unfold apiStatus
  split <;> exact ⟨rfl, rfl⟩

theorem Tails.feedStep {events : List FeedEvent} {s : SharedState}
    (h : Tails (segments events).2 (sinceReset events) s) (ev : FeedEvent) :
    Tails (segments (events ++ [ev])).2 (sinceReset (events ++ [ev])) (StreamWeb.feedStep s ev).1 := by
  have next := h.step ev
  rw [segments_snoc, sinceReset_snoc]
  cases ev <;> exact next

theorem tails_run (steps : List StatusStep) :
    Tails (segments (steps.filterMap StatusStep.feed?)).2 (sinceReset (steps.filterMap StatusStep.feed?))
      (StatusStep.run steps) := by
  induction steps using List.reverseRecOn with
  | nil => exact ⟨(List.rtake_nil _).symm, (List.rtake_nil _).symm⟩
  | append_singleton steps e ih =>
    rw [StatusStep.run, List.foldl_append, ← StatusStep.run, List.filterMap_append]
    cases e with
    | status =>
      obtain ⟨feed, results⟩ := apiStatus_lists (StatusStep.run steps)
      rw [List.filterMap_cons_none rfl, List.filterMap_nil, List.append_nil]
      exact ⟨feed.trans ih.feed, results.trans ih.results⟩
    | drain r => exact ih.feedStep (.drain r)
    | poll => exact ih.feedStep .poll
    | reset => exact ih.feedStep .reset

theorem decodeResults_run (steps : List StatusStep) :
    (StatusStep.run steps).decodeResults = currentEntries steps := (tails_run steps).results

/-! ## The numbers shown -/

/-- Rounded to a decimal, a percentage is one still. -/
theorem percentage_roundTo {x : ℚ} (low : 0 ≤ x) (high : x ≤ 100) : 0 ≤ Py.roundTo 1 x ∧ Py.roundTo 1 x ≤ 100 := by
  obtain ⟨below, above⟩ := abs_le.1 (Py.abs_round_sub (x * 10))
  rw [Py.roundTo, pow_one]
  generalize Py.round (x * 10) = scaled at *
  have nonneg : 0 ≤ scaled := by
    have step : ((-1 : ℤ) : ℚ) < scaled := by
      push_cast
      linarith
    have step : -1 < scaled := by exact_mod_cast step
    omega
  have small : scaled ≤ 1000 := by
    have step : (scaled : ℚ) < (1001 : ℤ) := by
      push_cast
      linarith
    have step : scaled < 1001 := by exact_mod_cast step
    omega
  have nonneg : (0 : ℚ) ≤ scaled := by exact_mod_cast nonneg
  have small : (scaled : ℚ) ≤ 1000 := by exact_mod_cast small
  constructor
  · positivity
  · rw [div_le_iff₀ (by norm_num)]
    linarith

/-- No more symbols are corrected than there are. -/
def DecodeEntry.Corrected (r : DecodeEntry) : Prop :=
  ∀ n total, r.pduNCorr = some n → r.numPduSymbols = some total → 0 ≤ n ∧ n ≤ total

theorem rsCorrPct_bounds {r : DecodeEntry} (corrected : r.Corrected) {pct : ℚ} (counts : r.rsCorrPct = some pct) :
    0 ≤ pct ∧ pct ≤ 100 := by
  unfold DecodeEntry.rsCorrPct at counts
  obtain ⟨n, has_n, counts⟩ := Option.bind_eq_some_iff.1 counts
  obtain ⟨total, has_total, counts⟩ := Option.bind_eq_some_iff.1 counts
  obtain ⟨low, high⟩ := corrected n total has_n has_total
  split at counts
  · cases counts
  next some_symbols =>
    cases counts
    have pos : (0 : ℚ) < total := by exact_mod_cast Nat.pos_of_ne_zero some_symbols
    have low : (0 : ℚ) ≤ n := by exact_mod_cast low
    have high : (n : ℚ) ≤ total := by exact_mod_cast high
    constructor
    · positivity
    · rw [div_le_iff₀ pos]
      linarith

theorem mem_ratesOf {entries : List DecodeEntry} {chip : String} {pct : ℚ} (mem : pct ∈ ratesOf entries chip) :
    ∃ r ∈ entries, r.chipset = chip ∧ r.rsCorrPct = some pct := by
  obtain ⟨⟨key, value⟩, counted, rfl⟩ := List.mem_map.1 mem
  obtain ⟨is_rated, same⟩ := List.mem_filter.1 counted
  obtain ⟨r, listed, counts⟩ := List.mem_filterMap.1 is_rated
  split at counts
  · cases counts
  · obtain ⟨value', has_rate, pair⟩ := Option.map_eq_some_iff.1 counts
    cases pair
    exact ⟨r, listed, of_decide_eq_true same, has_rate⟩

theorem avgRsCorrPct_bounds {pcts : List ℚ} (some_rate : pcts ≠ [])
    (bounds : ∀ pct ∈ pcts, 0 ≤ pct ∧ pct ≤ 100) : 0 ≤ avgRsCorrPct pcts ∧ avgRsCorrPct pcts ≤ 100 := by
  have pos : (0 : ℚ) < pcts.length := by exact_mod_cast List.length_pos_iff.2 some_rate
  have low : 0 ≤ pcts.sum := List.sum_nonneg fun pct mem => (bounds pct mem).1
  have high : pcts.sum ≤ pcts.length • (100 : ℚ) :=
    List.sum_le_card_nsmul pcts 100 fun pct mem => (bounds pct mem).2
  rw [nsmul_eq_mul] at high
  apply percentage_roundTo
  · positivity
  · rw [div_le_iff₀ pos]
    linarith

/-- **The averages of the status**, for every run of drained messages, polls, resets and requests. Every
row of a reply shows the average of the rated entries of its chipset among the last 200 since the latest
reset, and none without such entries, whatever earlier requests have left in the table. An average is
within a twentieth of the mean, and a percentage if no entry counts more corrections than symbols. The
number of devices is that of the identifiers of these entries. -/
theorem rates_shown (steps : List StatusStep) (fresh : ∀ r, .drain r ∈ steps → r.Fresh) (reply : StatusReply)
    (answered : (apiStatus (StatusStep.run steps)).2 = .ok reply) :
    (∀ chip row, reply.chipsetStats.lookup chip = some row →
      row.lookup "avg_rs_corr_pct" = shownRate (currentEntries steps) chip) ∧
    (∀ chip, ratesOf (currentEntries steps) chip ≠ [] →
      let pcts := ratesOf (currentEntries steps) chip
      |avgRsCorrPct pcts - pcts.sum / pcts.length| ≤ 1 / 20 ∧
        ((∀ r ∈ currentEntries steps, r.Corrected) → 0 ≤ avgRsCorrPct pcts ∧ avgRsCorrPct pcts ≤ 100)) ∧
    reply.nUniqueDevices = ((currentEntries steps).map DecodeEntry.ntwId).toFinset.card := by
  have entries := decodeResults_run steps
  refine ⟨?_, ?_, ?_⟩
  · intro chip row shown
    rw [← entries]
    exact (kept_run steps fresh).shows answered shown
  · intro chip some_rate pcts
    constructor
    · have close := Py.abs_roundTo_sub 1 (pcts.sum / pcts.length)
      have half : (1 / 2 / 10 ^ 1 : ℚ) = 1 / 20 := by norm_num
      rw [half] at close
      exact close
    · intro corrected
      apply avgRsCorrPct_bounds some_rate
      intro pct mem
      obtain ⟨r, listed, -, counts⟩ := mem_ratesOf mem
      exact rsCorrPct_bounds (corrected r listed) counts
  · rw [← entries]
    unfold apiStatus at answered
    split at answered
    · cases answered
    next devices served =>
      cases answered
      obtain ⟨-, rfl⟩ := apiStatusDevices_ok_iff.1 served
      dsimp only
      rw [← List.length_map DeviceRow.ntwId, deviceTable_ntwIds, deviceIds, Finset.length_sort]

/-- An entry of chipset A, a third of it corrected. -/
def ratedEntry : DecodeEntry := { feedEntry none none with pduNCorr := some 1, numPduSymbols := some 3 }

/-- A request between a result with an entry and a picture. -/
def ratedRun : List StatusStep :=
  [.drain { decodeEntries := some [ratedEntry], chipsetStats := some [("A", [("decoded", .int 1)])] }, .status,
    .drain { img := some [1] }]

theorem rates_shown_again :
    ∃ reply, (apiStatus (StatusStep.run ratedRun)).2 = .ok reply ∧ reply.nUniqueDevices = 1 ∧
      ∃ row, reply.chipsetStats.lookup "A" = some row ∧
        row.lookup "avg_rs_corr_pct" = some (.float (avgRsCorrPct [100 / 3])) := by
  have fresh : ∀ r, .drain r ∈ ratedRun → r.Fresh := by
    intro r mem
    simp only [ratedRun, List.mem_cons, StatusStep.drain.injEq, reduceCtorEq, List.not_mem_nil, or_false,
      false_or] at mem
    rcases mem with rfl | rfl
    · constructor
      · intro chip row found
        have distinct : ([("A", [("decoded", .int 1)])].map (Prod.fst : String × Py.Dict → String)).Nodup :=
          List.nodup_singleton _
        cases List.mem_singleton.1 ((Dict.lookup_eq_some_iff distinct).1 found)
        rfl
      · intro _
        exact List.cons_ne_nil _ _
    · constructor
      · intro chip row found
        cases found
      · intro some_entries
        exact absurd rfl some_entries
  have shown : shownRate (currentEntries ratedRun) "A" = some (.float (avgRsCorrPct [100 / 3])) := by
    have entries : currentEntries ratedRun = [ratedEntry] := rfl
    have rates : ratesOf [ratedEntry] "A" = [100 / 3] := by
      decide +kernel
    rw [entries, shownRate, rates]
  obtain ⟨rates, -, devices⟩ := rates_shown ratedRun fresh _ rfl
  refine ⟨_, rfl, devices, _, rfl, ?_⟩
  rw [rates "A" _ rfl, shown]

end StreamWeb

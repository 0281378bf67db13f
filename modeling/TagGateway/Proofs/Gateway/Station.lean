import TagGateway.Gateway.Station
import TagGateway.Proofs.Inventory.Standing
import TagGateway.Proofs.Store.Snapshot

set_option autoImplicit false

namespace TagGateway

variable {R : Type} [Level R]

namespace Gateway

/-- What a gateway may become without its file: what it knows stays the same, or it is marked. -/
structure Owns (g g' : Gateway R) : Prop where
  sound : g'.inventory.Sound
  clean : g'.dirty = false → g.dirty = false ∧ g.inventory.Alike g'.inventory

omit [Level R] in
theorem Owns.of_eq {g g' : Gateway R} (hi : g.inventory.Sound)
    (hinventory : g'.inventory = g.inventory) (hdirty : g'.dirty = g.dirty) : g.Owns g' where
  sound := hinventory ▸ hi
  clean h := ⟨hdirty ▸ h, hinventory ▸ .refl _⟩

omit [Level R] in
theorem owns_conclude {ε : Type} {g : Gateway R} (hi : g.inventory.Sound) (group : Group)
    (link : ReaderLink R) (what : String) (text : ε → String) (overflow? : ε → Option Overflow)
    (result : Except ε Unit) :
    g.Owns (({ g with group, link } : Gateway R).conclude what text overflow? result).1 := by
  unfold conclude
  split
  · exact .of_eq hi rfl rfl
  · split <;> exact .of_eq hi rfl rfl

/-- A report that events come of marks the inventory, and any other changes nothing known. -/
theorem owns_report {g : Gateway R} (hi : g.inventory.Sound) (device : String) (origin : Int64)
    (batch : List Reading) : g.Owns (g.report device origin batch).1 := by
  unfold report
  split
  next group taken _ =>
    obtain ⟨next, events, hreport, hsound, hquiet⟩ := hi.report device origin taken
    rw [hreport]
    cases events with
    | nil => exact { sound := hsound, clean := fun h => ⟨h, hquiet rfl⟩ }
    | cons event more => exact { sound := hsound, clean := nofun }

theorem owns_handle {g : Gateway R} (hi : g.inventory.Sound) (message : Inbound R) :
    g.Owns (g.handle message).1 := by
  cases message with
  | report device origin entries =>
    unfold handle
    dsimp only
    split
    · exact .of_eq hi rfl rfl
    · exact owns_report hi device origin _
  | readerConnected device caps => exact owns_conclude hi ..
  | readerClosed device => exact .of_eq hi rfl rfl
  | setBehavior behavior => exact owns_conclude hi ..
  | setEnvironment environment => exact owns_conclude hi ..
  | startAll => exact owns_conclude hi ..
  | stopAll => exact owns_conclude hi ..
  | updateConfig config =>
    unfold handle
    dsimp only
    split
    · next inventory hupdate =>
      obtain ⟨-, -, hinv⟩ := bind_eq_ok.1 hupdate
      obtain rfl := Except.ok.inj hinv
      exact { sound := ⟨hi.keyed, hi.tags⟩, clean := fun h => ⟨h, fun _ => rfl⟩ }
    · exact .of_eq hi rfl rfl
  | snapshot => exact .of_eq hi rfl rfl

structure Sweeps (g g' : Gateway R) (records : Option (List (TagRecord R))) : Prop where
  sound : g'.inventory.Sound
  dirty : g'.dirty = g.dirty
  told : g.inventory.Tells g'.inventory records

theorem sweeps_departed {g : Gateway R} (hi : g.inventory.Sound) {now : Int64}
    (hnow : 0 ≤ now.toInt) :
    ∃ g' records, g.sweepDeparted now = .ok (g', records) ∧ g.Sweeps g' records := by
  obtain ⟨next, events, records, hsweep, hsound, htold⟩ := hi.sweepDeparted hnow
  refine ⟨{ g with inventory := next, publisher := (g.publisher.publish events).2 }, records, ?_,
    { sound := hsound, dirty := rfl, told := htold }⟩
  rw [sweepDeparted, hsweep]
  rfl

theorem sweeps_ageOut {g : Gateway R} (hi : g.inventory.Sound) {now : Int64}
    (hnow : 0 ≤ now.toInt) :
    ∃ g' records, g.sweepAgeOut now = .ok (g', records) ∧ g.Sweeps g' records := by
  obtain ⟨next, count, records, hsweep, hsound, htold⟩ := hi.ageOut hnow
  refine ⟨{ g with inventory := next }, records, ?_,
    { sound := hsound, dirty := rfl, told := htold }⟩
  rw [sweepAgeOut, hsweep]
  rfl

end Gateway

namespace Station

variable [Wire R]

def started (s : Settings R) (eventCapacity outboundCapacity : Nat) (disk : Disk)
    (fileName : String) : Station R :=
  Station.restore { gateway := .new s eventCapacity outboundCapacity, disk, fileName }

/-- The stations that a first start, without a file, leads to. Each of their operations may follow
any other, each attempt to keep the inventory may fail, and a new start may take the place of a
station at any time. What else happens on the disk leaves the file alone. -/
inductive Reachable : Station R → Prop where
  | first (s : Settings R) (eventCapacity outboundCapacity : Nat) {disk : Disk} {fileName : String}
    (absent : disk.nodes[fileName]? = none) :
    Reachable (started s eventCapacity outboundCapacity disk fileName)
  | restart {st : Station R} (before : Reachable st) (s : Settings R)
    (eventCapacity outboundCapacity : Nat) :
    Reachable (started s eventCapacity outboundCapacity st.disk st.fileName)
  | handle {st : Station R} (before : Reachable st) (message : Inbound R) :
    Reachable (st.handle message).1
  | sweepDeparted {st next : Station R} {now : Int64} {fault : Option Fault}
    (before : Reachable st) (timely : 0 ≤ now.toInt)
    (step : st.sweepDeparted now fault = .ok next) : Reachable next
  | sweepAgeOut {st next : Station R} {now : Int64} {fault : Option Fault}
    (before : Reachable st) (timely : 0 ≤ now.toInt)
    (step : st.sweepAgeOut now fault = .ok next) : Reachable next
  | flushIfDirty {st : Station R} (before : Reachable st) (fault : Option Fault) :
    Reachable (st.flushIfDirty fault)
  | flush {st : Station R} (before : Reachable st) (fault : Option Fault) :
    Reachable (st.flush fault)
  | elsewhere {st : Station R} {disk : Disk} (before : Reachable st)
    (same : disk.nodes[st.fileName]? = st.disk.nodes[st.fileName]?) :
    Reachable { st with disk }

/-- What holds of such a station: its file is that of a sound inventory, which knows what the
gateway knows unless that is marked. -/
structure Kept (st : Station R) : Prop where
  sound : st.gateway.inventory.Sound
  file : ∃ source : Inventory R, source.Sound ∧ st.disk.Keeps st.fileName source
    ∧ (st.gateway.dirty = false → source.Alike st.gateway.inventory)

theorem Kept.of_owns {st : Station R} (h : st.Kept) {g : Gateway R} (howns : st.gateway.Owns g) :
    Kept { st with gateway := g } := by
  obtain ⟨source, hsource, hkeeps, halike⟩ := h.file
  refine { sound := howns.sound, file := ⟨source, hsource, hkeeps, fun hclean => ?_⟩ }
  have ⟨hbefore, hsame⟩ := howns.clean hclean
  exact (halike hbefore).trans hsame

theorem Kept.save {st : Station R} (h : st.Kept) {g : Gateway R} (hi : g.inventory.Sound)
    (fault : Option Fault) :
    Kept (Station.save { st with gateway := g } g.inventory.snapshot fault) := by
  obtain ⟨source, hsource, hkeeps, -⟩ := h.file
  refine { sound := hi, file := ?_ }
  cases hsuccess : (st.disk.persist st.fileName g.inventory.snapshot fault).1 with
  | true =>
    have hfile := (Disk.replace_succeeded hsuccess).1
    exact ⟨g.inventory, hi, .inr hfile, fun _ => .refl _⟩
  | false =>
    have hfile := Disk.replace_failed hsuccess
    refine ⟨source, hsource, ?_, fun hclean => ?_⟩
    · simpa only [Disk.Keeps, Station.save, Disk.persist, hfile] using hkeeps
    · simp [Station.save, Gateway.kept, hsuccess] at hclean

theorem Kept.follow {st : Station R} (h : st.Kept) {g : Gateway R}
    {records : Option (List (TagRecord R))} (hsweeps : st.gateway.Sweeps g records)
    (fault : Option Fault) : (st.follow (g, records) fault).Kept := by
  obtain ⟨rfl, hsame⟩ | rfl := hsweeps.told
  · exact h.of_owns (.of_eq h.sound hsame hsweeps.dirty)
  · exact h.save hsweeps.sound fault

theorem kept_started {s : Settings R} {eventCapacity outboundCapacity : Nat} {disk : Disk}
    {fileName : String} (legible : Wire.Legible R) {source : Inventory R} (hs : source.Sound)
    (hkeeps : disk.Keeps fileName source) :
    (started s eventCapacity outboundCapacity disk fileName).Kept := by
  obtain ⟨tell, htell, hload⟩ := hkeeps.load legible
  obtain ⟨hsound, halike⟩ := hs.restore_new htell s.inventory
  have hinventory : (started s eventCapacity outboundCapacity disk fileName).gateway.inventory
      = (Inventory.new s.inventory).restore (source.tags.toList.map (tell ·.2)) := by
    simp [started, restore, Disk.loadOrEmpty, hload, Gateway.new]
  exact
    { sound := hinventory ▸ hsound
      file := ⟨source, hs, hkeeps, fun _ => hinventory ▸ halike⟩ }

theorem Reachable.kept (legible : Wire.Legible R) {st : Station R} (h : st.Reachable) :
    st.Kept := by
  induction h with
  | first s _ _ absent =>
    exact kept_started legible (Inventory.sound_new s.inventory) (.inl ⟨absent, rfl⟩)
  | restart _ s _ _ ih =>
    obtain ⟨source, hsource, hkeeps, -⟩ := ih.file
    exact kept_started legible hsource hkeeps
  | handle _ message ih => exact ih.of_owns (Gateway.owns_handle ih.sound message)
  | sweepDeparted _ timely step ih =>
    obtain ⟨g, records, hsweep, hsweeps⟩ := Gateway.sweeps_departed ih.sound timely
    rw [Station.sweepDeparted, hsweep] at step
    exact Except.ok.inj step ▸ ih.follow hsweeps _
  | sweepAgeOut _ timely step ih =>
    obtain ⟨g, records, hsweep, hsweeps⟩ := Gateway.sweeps_ageOut ih.sound timely
    rw [Station.sweepAgeOut, hsweep] at step
    exact Except.ok.inj step ▸ ih.follow hsweeps _
  | @flushIfDirty st _ fault ih =>
    cases hdirty : st.gateway.dirty with
    | true =>
      have hsave := ih.save (g := { st.gateway with dirty := false }) ih.sound fault
      simpa [Station.flushIfDirty, Station.follow, Gateway.flushIfDirty, hdirty] using hsave
    | false =>
      have hsame : st.gateway.Owns { st.gateway with dirty := false } :=
        .of_eq ih.sound rfl hdirty.symm
      simpa [Station.flushIfDirty, Station.follow, Gateway.flushIfDirty, hdirty]
        using ih.of_owns hsame
  | @flush st _ fault ih => exact ih.save (g := { st.gateway with dirty := false }) ih.sound fault
  | elsewhere _ same ih =>
    obtain ⟨source, hsource, hkeeps, halike⟩ := ih.file
    refine { sound := ih.sound, file := ⟨source, hsource, ?_, halike⟩ }
    simpa only [Disk.Keeps, same] using hkeeps

/-- Unless the inventory of a station is marked as changed, its file can be loaded and knows of all
tags ever located what the inventory knows of them. And sweeps do not fail. -/
theorem clean_of_reachable {st : Station Float} (h : st.Reachable) :
    (st.gateway.dirty = false →
      ∃ records : List (TagRecord Float), st.disk.load st.fileName = .ok records
        ∧ records.filterMap TagRecord.standing? = st.gateway.inventory.standings)
    ∧ ∀ (now : Int64) (fault : Option Fault), 0 ≤ now.toInt →
      (∃ next, st.sweepDeparted now fault = .ok next)
      ∧ ∃ next, st.sweepAgeOut now fault = .ok next := by
  have hkept := h.kept Wire.legible_float
  refine ⟨fun hclean => ?_, fun now fault hnow => ⟨?_, ?_⟩⟩
  · obtain ⟨source, hsource, hkeeps, halike⟩ := hkept.file
    obtain ⟨tell, htell, hload⟩ := hkeeps.load Wire.legible_float
    refine ⟨_, hload, ?_⟩
    rw [← (halike hclean).standings_eq, List.filterMap_map]
    simp [Inventory.standings, (htell _).standing?]
  · obtain ⟨g, records, hsweep, -⟩ := Gateway.sweeps_departed hkept.sound hnow
    exact ⟨_, by rw [Station.sweepDeparted, hsweep]; rfl⟩
  · obtain ⟨g, records, hsweep, -⟩ := Gateway.sweeps_ageOut hkept.sound hnow
    exact ⟨_, by rw [Station.sweepAgeOut, hsweep]; rfl⟩

/-- A tag arrives. The first attempt to keep that fails and the second does not. -/
theorem clean_of_reachable_retry :
    let entry : Json :=
      .obj [("epc_96", .obj [("epc", .str "01")]), ("antenna_id", .int 1)]
    let reported : Station Float :=
      ((started .default 1 1 {} "tags").handle (.report "dock" 0 [entry])).1
    let failed := reported.flushIfDirty (some .sync)
    let st := failed.flushIfDirty none
    failed.gateway.dirty = true ∧ st.Reachable ∧ st.gateway.dirty = false
      ∧ ∃ records : List (TagRecord Float), st.disk.load st.fileName = .ok records
        ∧ records.filterMap TagRecord.standing?
          = [{ epc := "01", state := .present, location := "dock_1", lastArrived := 0,
               lastDeparted := 0 }] := by
  intro entry reported failed st
  have hreachable : st.Reachable :=
    .flushIfDirty (.flushIfDirty (.handle (.first .default 1 1 (by rfl)) _) _) _
  have hfailed : failed.gateway.dirty = true := by decide +kernel
  have hclean : st.gateway.dirty = false := by decide +kernel
  have hknown : st.gateway.inventory.standings
      = [{ epc := "01", state := .present, location := "dock_1", lastArrived := 0,
           lastDeparted := 0 }] := by decide +kernel
  obtain ⟨records, hload, hsame⟩ := (clean_of_reachable hreachable).1 hclean
  exact ⟨hfailed, hreachable, hclean, records, hload, hsame.trans hknown⟩

end Station

end TagGateway

import AlarmClock.DismissLog
import AlarmClock.UnstableSort

/-!
# The logs when the sort moves ties

Every tick inside the dialog sorts the list anew, and the end of the dialog looks up the log
of an alarm by the index that was remembered from its beginning. The lines are made of what
was remembered, so the common log has the right ones whatever the sort does; a line may go
to the log of another alarm. It is the line of that alarm all the same if the sort leaves
the list alone, or if alarms with one date-time ring together, in camera mode or not.
-/

namespace AlarmClock

open StatDialog

namespace Dismissal

/-- The years that the formats of the log can hold. -/
def FourDigits (d : Dismissal) : Prop :=
  (∀ x ∈ d.rung, x.2.dateTime.HasFourDigitYear) ∧ d.now.HasFourDigitYear

instance (d : Dismissal) : Decidable d.FourDigits := inferInstanceAs (Decidable (_ ∧ _))

/-- An alarm that rang shares its date-time with enabled alarms only, and they are in camera
    mode where it is. -/
def TiesAlike (d : Dismissal) : Prop :=
  ∀ x ∈ d.rung, ∀ e ∈ d.alarms, e.dateTime.msecs = x.2.dateTime.msecs → e.enabled = true ∧
    (e.dismissMode = DismissMode.DismissCamera.toInt ↔
      x.2.dismissMode = DismissMode.DismissCamera.toInt)

instance (d : Dismissal) : Decidable d.TiesAlike := by
  unfold TiesAlike; infer_instance

/-- A dismissal as the window comes to it: the list is that of the beginning of the dialog,
    sorted again, and what rang is what was due then. -/
structure Written (P : Platform) (d : Dismissal) : Prop where
  entries : ∀ e ∈ d.alarms, e.Ok P.home
  nodup : (d.alarms.map (·.alarmId)).Nodup
  now_era : d.now.InCommonEra
  rung : ∃ now before, P.sort.Resorted before d.alarms ∧ d.rung = rungAt now before

/-- The dismissal with what stands at its end at the indices that were remembered. -/
def standing (d : Dismissal) : Dismissal :=
  { d with rung := d.rung.filterMap fun x => d.alarms[x.1]?.map fun e => (x.1, e) }

/-- What stands there has the line of what rang, and is what rang up to the order. -/
structure Alike (d : Dismissal) : Prop where
  found : ∀ x ∈ d.rung, ∃ e, d.alarms[x.1]? = some e ∧ e.dateTime = x.2.dateTime ∧
    (e.dismissMode = DismissMode.DismissCamera.toInt ↔
      x.2.dismissMode = DismissMode.DismissCamera.toInt)
  perm : (d.standing.rung.map (·.2)).Perm (d.rung.map (·.2))

variable {P : Platform} {d : Dismissal}

/-! ### What stands at the remembered indices -/

theorem map_fst_rungAt (now : QDateTime) (alarms : List AlarmEntry) :
    (rungAt now alarms).map (·.1) = IndexedUpdate.marked (·.due now) 0 alarms := by
  rw [← index_collectTriggered, ← triggered_rungAt, List.map_map]
  rfl

theorem map_snd_rungAt (now : QDateTime) (alarms : List AlarmEntry) :
    (rungAt now alarms).map (·.2) = alarms.filter (·.due now) := by
  rw [← IndexedUpdate.filterMap_marked, ← map_fst_rungAt, List.filterMap_map,
    ← List.filterMap_eq_map]
  apply List.filterMap_congr
  intro x hx
  exact (mem_rungAt.mp hx).1.symm

theorem map_snd_standing (d : Dismissal) :
    d.standing.rung.map (·.2) = (d.rung.map (·.1)).filterMap fun i => d.alarms[i]? := by
  unfold standing
  rw [List.map_filterMap, List.filterMap_map]
  apply List.filterMap_congr
  intro x _
  simp only [Option.map_map, Function.comp_def]
  exact Option.map_id'

theorem TiesAlike.noMixedTie {now : QDateTime} {before : List AlarmEntry} (h : d.TiesAlike)
    (hperm : before.Perm d.alarms) (hrung : d.rung = rungAt now before) :
    NoMixedTie now d.alarms := by
  intro a ha b hb hdue hkey
  obtain ⟨i, hi⟩ := List.mem_iff_getElem?.mp (hperm.mem_iff.mpr ha)
  have hmem : (i, a) ∈ d.rung := by
    rw [hrung]
    exact mem_rungAt.mpr ⟨hi, hdue⟩
  exact (h (i, a) hmem b hb hkey).1

theorem Written.mem (h : d.Written P) {x : Nat × AlarmEntry} (hx : x ∈ d.rung) :
    x.2 ∈ d.alarms := by
  obtain ⟨now, before, hresorted, hrung⟩ := h.rung
  rw [hrung] at hx
  exact hresorted.perm.mem_iff.mp (List.mem_of_getElem? (mem_rungAt.mp hx).1)

/-- Two entries of the list with one key have one date-time. -/
theorem Written.dateTime_eq (h : d.Written P) {a b : AlarmEntry} (ha : a ∈ d.alarms)
    (hb : b ∈ d.alarms) (hkey : a.dateTime.msecs = b.dateTime.msecs) : a.dateTime = b.dateTime := by
  have hvalid := (h.entries a ha).era.1.trans (h.entries b hb).era.1.symm
  cases hdateTime : a.dateTime
  cases hdateTime' : b.dateTime
  rw [hdateTime, hdateTime'] at hkey hvalid
  exact congrArg₂ QDateTime.mk hkey hvalid

/-- **The lines go to the right logs**, if the sort leaves the list alone or ties are alike. -/
theorem Written.alike (h : d.Written P) (hties : P.sort.Keeps d.alarms ∨ d.TiesAlike) :
    d.Alike := by
  obtain ⟨now, before, hresorted, hrung⟩ := h.rung
  have hmarked : IndexedUpdate.marked (·.due now) 0 before =
      IndexedUpdate.marked (·.due now) 0 d.alarms := by
    rcases hties with hkeeps | halike
    · rw [hresorted.keeps hkeeps]
    · exact IndexedUpdate.marked_congr (map_due_eq (halike.noMixedTie hresorted.perm hrung)
        hresorted.perm (List.Perm.refl _) hresorted.sorted_before hresorted.sorted_after) 0
  constructor
  · intro x hx
    have hx' := hx
    rw [hrung] at hx'
    obtain ⟨e, he, hkey⟩ := hresorted.getElem? (mem_rungAt.mp hx').1
    have hmem : e ∈ d.alarms := List.mem_of_getElem? he
    refine ⟨e, he, h.dateTime_eq hmem (h.mem hx) hkey, ?_⟩
    rcases hties with hkeeps | halike
    · rw [hresorted.keeps hkeeps] at hx'
      obtain rfl := Option.some.inj (he.symm.trans (mem_rungAt.mp hx').1)
      exact Iff.rfl
    · exact (halike x hx e hmem hkey).2
  · rw [map_snd_standing, hrung, map_fst_rungAt, hmarked, IndexedUpdate.filterMap_marked,
      map_snd_rungAt]
    exact (hresorted.perm.filter _).symm

/-! ### The logs -/

theorem Written.dated (h : d.Written P) (hyears : d.FourDigits) : d.Dated :=
  ⟨fun x hx => ⟨(h.entries _ (h.mem hx)).era, hyears.1 x hx⟩, h.now_era, hyears.2⟩

theorem Alike.dated (h : d.Alike) (hdated : d.Dated) : d.standing.Dated := by
  refine ⟨?_, hdated.now_era⟩
  intro y hy
  obtain ⟨x, hx, hxy⟩ := List.mem_filterMap.mp hy
  obtain ⟨e, he, hdateTime, -⟩ := h.found x hx
  rw [he] at hxy
  obtain rfl := Option.some.inj hxy
  rw [hdateTime]
  exact hdated.era x hx

/-- No alarm has the common log for its own. -/
theorem Written.own (h : d.Written P) : ∀ a ∈ alarmRecords d.alarms d.triggered
    d.now.toSecondText d.capturedPhotoPath, a.1 ≠ P.home ++ "/alarm.txt".toList := by
  intro a ha
  obtain ⟨t, -, hline⟩ := List.mem_filterMap.mp ha
  cases he : d.alarms[t.index]? with
  | none => simp [he] at hline
  | some e =>
    have hlog := (h.entries e (List.mem_of_getElem? he)).log
    simp only [he] at hline
    split at hline
    · cases hline
    · obtain rfl := Option.some.inj hline
      rw [hlog]
      exact alarmLogPath_ne P.home e.alarmId

/-- The line of what rang is that of what stands at its index. -/
theorem Written.alarmRecords_eq (h : d.Written P) (ha : d.Alike) :
    alarmRecords d.alarms d.triggered d.now.toSecondText d.capturedPhotoPath =
      d.standing.bodies.map fun b => (alarmLogPath P.home b.1, b.2 ++ ['\n']) := by
  have hpath : ∀ t ∈ d.triggered, ∀ e, d.alarms[t.index]? = some e → ¬ e.logFile.isEmpty := by
    intro t _ e he
    simp [(h.entries e (List.mem_of_getElem? he)).log, alarmLogPath]
  rw [alarmRecords_of_paths hpath]
  unfold triggered bodies standing
  rw [List.filterMap_map, List.map_map, List.map_filterMap]
  apply List.filterMap_congr
  intro x hx
  obtain ⟨e, he, hdateTime, hcamera⟩ := ha.found x hx
  have hphoto : d.photo x.2 = d.photo e := if_congr hcamera.symm rfl rfl
  have hline := logLine_triggeredInfo d x
  rw [← hdateTime, hphoto] at hline
  simp only [Function.comp_apply, triggeredInfo, he, Option.map_some]
  rw [(h.entries e (List.mem_of_getElem? he)).log]
  exact congrArg (fun line => some (alarmLogPath P.home e.alarmId, line)) hline

theorem logged_eq (d : Dismissal) :
    d.logged = (d.rung.map (·.2)).map fun e => (e.alarmId, d.record e) := by
  rw [List.map_map]
  rfl

/-- An alarm has the same record in both orders. -/
theorem Written.logged_standing (h : d.Written P) (ha : d.Alike) (id : Int) :
    (d.standing.logged.filter fun x => x.1 = id) = d.logged.filter fun x => x.1 = id := by
  have hnodup : ((d.standing.rung.map (·.2)).map (·.alarmId)).Nodup := by
    obtain ⟨now, before, hresorted, hrung⟩ := h.rung
    refine (ha.perm.map _).nodup_iff.mpr ?_
    rw [hrung, map_snd_rungAt]
    have hnodup' := (hresorted.perm.map (·.alarmId)).nodup_iff.mpr h.nodup
    exact hnodup'.sublist (List.filter_sublist.map _)
  have hsame := KeySort.filter_key_eq_of_perm ha.perm hnodup id
  have hlogged : ∀ d : Dismissal, (d.logged.filter fun x => x.1 = id) =
      ((d.rung.map (·.2)).filter fun e => e.alarmId = id).map fun e => (e.alarmId, d.record e) := by
    intro d
    rw [logged_eq, List.filter_map]
    rfl
  rw [hlogged, hlogged, hsame]
  rfl

end Dismissal

variable {P : Platform} {ds : List Dismissal}

/-- **The common log** has the record of everything that rang, whatever the sort does. -/
theorem records_alarm (h : ∀ d ∈ ds, d.Written P) (hyears : ∀ d ∈ ds, d.FourDigits)
    (hphoto : ∀ d ∈ ds, PhotoPath d.capturedPhotoPath) :
    records (textOf (P.home ++ "/alarm.txt".toList) (ds.flatMap (·.appends P.home))) =
      (ds.flatMap (·.logged)).map (·.2) := by
  have hall := records_bodies (fun d hd => (h d hd).dated (hyears d hd)) hphoto fun _ => true
  rw [textOf_flatMap, List.flatMap_congr fun d hd => textOf_alarm (h d hd).own]
  simpa only [List.filter_true] using hall

/-- **The log of an alarm** has the records of that alarm. -/
theorem records_alarmLogPath (h : ∀ d ∈ ds, d.Written P) (hyears : ∀ d ∈ ds, d.FourDigits)
    (hphoto : ∀ d ∈ ds, PhotoPath d.capturedPhotoPath)
    (hties : ∀ d ∈ ds, P.sort.Keeps d.alarms ∨ d.TiesAlike) (id : Int) :
    records (textOf (alarmLogPath P.home id) (ds.flatMap (·.appends P.home))) =
      ((ds.flatMap (·.logged)).filter fun x => x.1 = id).map (·.2) := by
  have halike : ∀ d ∈ ds, d.Alike := fun d hd => (h d hd).alike (hties d hd)
  have hdated : ∀ d ∈ ds.map Dismissal.standing, d.Dated := by
    intro d' hd'
    obtain ⟨d, hd, rfl⟩ := List.mem_map.mp hd'
    exact (halike d hd).dated ((h d hd).dated (hyears d hd))
  have hphoto' : ∀ d ∈ ds.map Dismissal.standing, PhotoPath d.capturedPhotoPath := by
    intro d' hd'
    obtain ⟨d, hd, rfl⟩ := List.mem_map.mp hd'
    exact hphoto d hd
  have hstanding := records_bodies hdated hphoto' fun i => i = id
  rw [List.flatMap_map, List.flatMap_map, List.filter_flatMap,
    List.flatMap_congr fun d hd => (h d hd).logged_standing (halike d hd) id] at hstanding
  rw [textOf_flatMap, List.flatMap_congr fun d hd =>
    textOf_alarmLogPath ((h d hd).alarmRecords_eq (halike d hd)) id, List.filter_flatMap]
  exact hstanding

end AlarmClock

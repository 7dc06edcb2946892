import AlarmClock.AlarmEntry
import AlarmClock.DateTimeText

/-!
# The saved files

`alarm_counter.txt` holds the next id as text, `alarms_save.json` the list as a JSON
document. A document is kept as the value that Qt reads from it: an array of objects,
or something else. A number that is not integral reads as `null` does.
-/

namespace AlarmClock

/-- `n + 1` as an `int`; there is no value beyond the largest one. -/
def succInt (n : Int) : Option Int := if n < 2147483647 then some (n + 1) else none

/-! ### JSON values -/

inductive QJsonValue where
  | null
  | bool (b : Bool)
  | number (n : Int)
  | string (s : QString)
deriving DecidableEq, Repr

abbrev QJsonObject := List (String × QJsonValue)

/-- One element of the array: an object, or anything else. -/
inductive JsonElement where
  | object (obj : QJsonObject)
  | other
deriving DecidableEq, Repr

/-- A parsed file: an array, or anything else, a parse error included. -/
inductive QJsonDocument where
  | array (arr : List JsonElement)
  | other
deriving DecidableEq, Repr

namespace QJsonObject

def toInt (obj : QJsonObject) (key : String) (defaultValue : Int) : Int :=
  match obj.lookup key with
  | some (.number n) => if IsInt n then n else defaultValue
  | _ => defaultValue

def toBool (obj : QJsonObject) (key : String) (defaultValue : Bool) : Bool :=
  match obj.lookup key with
  | some (.bool b) => b
  | _ => defaultValue

def toString (obj : QJsonObject) (key : String) (defaultValue : QString) : QString :=
  match obj.lookup key with
  | some (.string s) => s
  | _ => defaultValue

end QJsonObject

/-! ### The list file -/

/-- The object that `saveAlarms` writes for an entry. -/
def AlarmEntry.toJson (e : AlarmEntry) : QJsonObject :=
  [("alarmId", .number e.alarmId),
   ("dateTime", .string e.dateTime.toIsoDate),
   ("enabled", .bool e.enabled),
   ("soundFile", .string e.soundFile),
   ("dismissMode", .number e.dismissMode),
   ("gameType", .number e.gameType),
   ("repeatMask", .number e.repeatMask),
   ("useSpecificDate", .bool e.useSpecificDate),
   ("logFile", .string e.logFile)]

/-- The entry that `loadAlarms` reads from an object, each field with its default. -/
def AlarmEntry.fromJson (home : QString) (obj : QJsonObject) : AlarmEntry :=
  let alarmId := obj.toInt "alarmId" 0
  { alarmId := alarmId
    dateTime := QDateTime.fromString isoFormat (obj.toString "dateTime" [])
    enabled := obj.toBool "enabled" true
    soundFile := obj.toString "soundFile" (home ++ "/test_contents/good_morning.wav".toList)
    dismissMode := obj.toInt "dismissMode" 0
    gameType := obj.toInt "gameType" 0
    repeatMask := obj.toInt "repeatMask" 0
    useSpecificDate := obj.toBool "useSpecificDate" false
    logFile := obj.toString "logFile" (alarmLogPath home alarmId) }

/-- The array that `saveAlarms` writes. -/
def alarmsArray (alarms : List AlarmEntry) : List JsonElement :=
  alarms.map fun e => .object e.toJson

/-- One round of the loop of `loadAlarms`, on `m_alarms` and `m_nextAlarmId`. -/
def loadElement (home : QString) (now : QDateTime) (m : List AlarmEntry × Int)
    (val : JsonElement) : Option (List AlarmEntry × Int) :=
  match val with
  | .other => some m
  | .object obj =>
    let e := AlarmEntry.fromJson home obj
    if e.dateTime.isValid = false then some m
    else
      let e := e.advance now
      if e.alarmId ≥ m.2 then (succInt e.alarmId).map fun next => (m.1 ++ [e], next)
      else some (m.1 ++ [e], m.2)

/-! ### The counter file -/

/-- What `loadAlarmCounter` makes of the file: a value that is not positive is ignored. -/
def readCounter (file : Option QString) (nextAlarmId : Int) : Int :=
  match file with
  | some text => let saved := TextFormat.readInt text; if saved > 0 then saved else nextAlarmId
  | none => nextAlarmId

theorem readCounter_decimal {n : Int} (h : 0 < n) (nextAlarmId : Int) :
    readCounter (some (TextFormat.decimal n)) nextAlarmId = n := by
  simp only [readCounter, TextFormat.readInt_decimal]
  exact if_pos h

/-! ### Loading what was saved -/

namespace AlarmEntry

variable {home : QString}

/-- What is left of an entry when it is saved and loaded at `now`. -/
def normalise (now : QDateTime) (e : AlarmEntry) : AlarmEntry := e.truncSec.advance now

/-- What a load at `now` makes of a saved entry: one whose year the ISO format cannot
    write is passed over. -/
def reload (now : QDateTime) (e : AlarmEntry) : Option AlarmEntry :=
  if e.dateTime.HasFourDigitYear then some (e.normalise now) else none

theorem fromJson_toJson {e : AlarmEntry} (h : e.Ok home) :
    fromJson home e.toJson =
      { e with dateTime := QDateTime.fromString isoFormat e.dateTime.toIsoDate } := by
  have hid : QJsonObject.toInt e.toJson "alarmId" 0 = e.alarmId := if_pos h.id
  have hmode : QJsonObject.toInt e.toJson "dismissMode" 0 = e.dismissMode := if_pos h.mode
  have hgame : QJsonObject.toInt e.toJson "gameType" 0 = e.gameType := if_pos h.game
  have hrange : IsInt e.repeatMask := by
    have := h.mask
    unfold IsInt
    omega
  have hmask : QJsonObject.toInt e.toJson "repeatMask" 0 = e.repeatMask := if_pos hrange
  simp only [fromJson, hid, hmode, hgame, hmask]
  rfl

@[simp] theorem normalise_alarmId (now : QDateTime) (e : AlarmEntry) :
    (e.normalise now).alarmId = e.alarmId := by
  rw [normalise, advance_alarmId, truncSec_alarmId]

theorem Ok.normalise {now : QDateTime} {e : AlarmEntry} (h : e.Ok home) (hnow : now.InCommonEra) :
    (e.normalise now).Ok home :=
  h.truncSec.advance hnow

theorem Ok.truncSec_normalise {now : QDateTime} {e : AlarmEntry} (h : e.Ok home)
    (hnow : now.InCommonEra) : (e.normalise now).truncSec = e.normalise now := by
  by_cases hmask : (e.normalise now).repeatMask ≠ 0
  · exact (h.normalise hnow).truncSec_eq hmask
  · unfold AlarmEntry.normalise at hmask ⊢
    rcases advance_cases now e.truncSec with ⟨-, heq⟩ | ⟨-, -, heq⟩ | ⟨-, hne, heq⟩
    · rw [heq, truncSec_truncSec]
    · rw [heq]
      simp only [AlarmEntry.truncSec, QDateTime.truncSec_truncSec]
    · rw [heq] at hmask
      exact absurd hne hmask

/-- **A load after a load.** Normalising at `t` without saving and normalising again at
    `t'` is normalising once at `t'`. -/
theorem Ok.normalise_normalise {e : AlarmEntry} (h : e.Ok home) {t t' : QDateTime}
    (ht : t.InCommonEra) (ht' : t'.InCommonEra) (hle : t ≤ t') :
    (e.normalise t).normalise t' = e.normalise t' := by
  rw [AlarmEntry.normalise, h.truncSec_normalise ht]
  exact h.truncSec.advance_advance ht.1 ht'.1 hle

/-- A load keeps the entries whose year can be written, each normalised. -/
theorem filterMap_reload (now : QDateTime) (l : List AlarmEntry) :
    l.filterMap (reload now) =
      (l.filter fun e => decide e.dateTime.HasFourDigitYear).map (normalise now) := by
  induction l with
  | nil => rfl
  | cons e l ih =>
    by_cases hyear : e.dateTime.HasFourDigitYear
    · simp [reload, hyear, ← ih]
    · simp [reload, hyear, ← ih]

/-- One round of the load on a saved entry with an id below the counter. -/
theorem loadElement_toJson {e : AlarmEntry} (h : e.Ok home) {now : QDateTime}
    {alarms : List AlarmEntry} {next : Int} (hid : e.alarmId < next) :
    loadElement home now (alarms, next) (.object e.toJson) =
      some (alarms ++ (e.reload now).toList, next) := by
  simp only [loadElement, fromJson_toJson h]
  by_cases hyear : e.dateTime.HasFourDigitYear
  · have hread : ({ e with dateTime := QDateTime.fromString isoFormat e.dateTime.toIsoDate } :
        AlarmEntry) = e.truncSec := by
      rw [QDateTime.fromString_toIsoDate h.era hyear]
      rfl
    rw [hread, QDateTime.fromString_toIsoDate h.era hyear]
    have hvalid : ¬ e.dateTime.truncSec.isValid = false := by
      rw [QDateTime.truncSec_isValid, h.valid]
      exact Bool.noConfusion
    rw [if_neg hvalid, if_neg (by rw [advance_alarmId, truncSec_alarmId]; omega), reload,
      if_pos hyear]
    rfl
  · rw [if_pos (QDateTime.isValid_fromString_toIsoDate hyear), reload, if_neg hyear]
    simp

/-- **Loading what was saved.** The loop appends what each entry reloads to and leaves
    the counter alone, when the counter was ahead of every saved id. -/
theorem foldlM_loadElement {saved : List AlarmEntry} {next : Int}
    (hok : ∀ e ∈ saved, e.Ok home) (hid : ∀ e ∈ saved, e.alarmId < next) (now : QDateTime)
    (alarms : List AlarmEntry) :
    (alarmsArray saved).foldlM (loadElement home now) (alarms, next) =
      some (alarms ++ saved.filterMap (reload now), next) := by
  simp only [alarmsArray, List.foldlM_map]
  induction saved generalizing alarms with
  | nil => simp
  | cons e saved ih =>
    rw [List.foldlM_cons, loadElement_toJson (hok e (by simp)) (hid e (by simp))]
    have ih' := ih (fun x hx => hok x (by simp [hx])) (fun x hx => hid x (by simp [hx]))
      (alarms ++ (e.reload now).toList)
    rw [Option.bind_eq_bind, Option.bind_some, ih', List.append_assoc]
    cases h : e.reload now with
    | none => simp [h]
    | some x => simp [h]

end AlarmEntry

end AlarmClock

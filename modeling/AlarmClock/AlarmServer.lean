import AlarmClock.QString

/-!
# The alarm server

The handler of one command line of a client. It reads `alarm.txt`, or the file of a
`GET_PHOTO` command when the path passes two tests on its text. What the file system
makes of the path is a matter of its components; the two agree except where the path
goes on in the middle of the home directory's own last component.
-/

namespace AlarmClock

abbrev QByteArray := List UInt8

/-! ### Paths and files -/

/-- The components of a path; the empty one and `.` name nothing. -/
def pathComponents (path : QString) : List QString :=
  (Text.segments '/' path).filter (· ≠ ".".toList)

/-- `QDir::homePath()`: an absolute and clean path. -/
structure HomePath where
  components : List QString
  clean : ∀ c ∈ components, c ≠ [] ∧ '/' ∉ c ∧ '\x00' ∉ c ∧ c ≠ ".".toList ∧ c ≠ "..".toList

def HomePath.text (home : HomePath) : QString :=
  if home.components.isEmpty then "/".toList else home.components.flatMap ('/' :: ·)

inductive Node where
  | file (bytes : QByteArray)
  | directory
deriving DecidableEq, Repr

/-- What lies where, without symbolic links. The home directory is a directory. -/
structure FileSystem (home : HomePath) where
  node : List QString → Option Node
  home_directory : node home.components = some .directory

/-- The name that the system call sees. -/
def nativeName (path : QString) : QString := path.takeWhile (· ≠ '\x00')

/-- `QFile::open` for reading, and `readAll`. A path that ends in `/` or `/.` asks for a
    directory, and a directory is not opened. -/
def readFile {home : HomePath} (fs : FileSystem home) (path : QString) : Option QByteArray :=
  let last := (nativeName path).rtakeWhile (· ≠ '/')
  if last = [] ∨ last = ".".toList then none
  else
    match fs.node (pathComponents (nativeName path)) with
    | some (.file bytes) => some bytes
    | _ => none

/-! ### The handler -/

/-- The answer to a command, and the path of the file that was read for it. -/
structure Reply where
  payload : QByteArray := []
  read : Option QString := none
deriving DecidableEq, Repr

/-- `f.open` and `f.readAll` into the payload. -/
def Reply.ofFile {home : HomePath} (fs : FileSystem home) (path : QString) : Reply :=
  match readFile fs path with
  | some bytes => { payload := bytes, read := some (nativeName path) }
  | none => {}

/-- The handler of `startAlarmServer` on one line of a client. -/
def handleLine {home : HomePath} (fs : FileSystem home) (line : QString) : Reply :=
  let command := line.trimmed
  if command = "GET_LOG".toList ∨ command.isEmpty then
    Reply.ofFile fs (home.text ++ "/alarm.txt".toList)
  else if command.startsWith "GET_PHOTO:".toList then
    let path := (command.mid 10).trimmed
    if path.startsWith home.text && !path.contains "..".toList then Reply.ofFile fs path
    else {}
  else {}

/-! ### What may be served -/

/-- The path lies strictly below the home directory, component by component. A `..` is a
    component as any other here: the handler has refused a path that contains one. -/
def Below (home : HomePath) (path : QString) : Prop :=
  path.head? = some '/' ∧ ∃ rest, rest ≠ [] ∧ pathComponents path = home.components ++ rest

/-- Every file that is read is the log or lies below the home directory, and the answer is
    empty when none is read. -/
def ServesOnlyHome {home : HomePath} (fs : FileSystem home) (line : QString) : Prop :=
  (∀ path, (handleLine fs line).read = some path →
    path = home.text ++ "/alarm.txt".toList ∨ Below home path) ∧
  ((handleLine fs line).read = none → (handleLine fs line).payload = [])

/-- The command asks for the photo at a path. -/
def AsksFor (line path : QString) : Prop :=
  line.trimmed.startsWith "GET_PHOTO:".toList = true ∧ path = (line.trimmed.mid 10).trimmed

/-- The command names a file whose path goes on after the home directory's without a `/`. -/
def Beside {home : HomePath} (fs : FileSystem home) (line : QString) : Prop :=
  ∃ path, AsksFor line path ∧ path.contains "..".toList = false ∧ home.components ≠ [] ∧
    (∃ c rest, nativeName path = home.text ++ c :: rest ∧ c ≠ '/') ∧ readFile fs path ≠ none

/-! ### Components -/

theorem pathComponents_append (l l' : QString) :
    pathComponents (l ++ '/' :: l') = pathComponents l ++ pathComponents l' := by
  unfold pathComponents
  rw [Text.segments_append, List.filter_append]

theorem pathComponents_slash (l : QString) : pathComponents ('/' :: l) = pathComponents l :=
  pathComponents_append [] l

/-- A word that names something. -/
def Names (c : QString) : Prop := c ≠ [] ∧ '/' ∉ c ∧ c ≠ ".".toList

theorem pathComponents_of_names {c : QString} (h : Names c) : pathComponents c = [c] := by
  obtain ⟨hne, hslash, hdot⟩ := h
  unfold pathComponents
  rw [Text.segments_of_not_mem hslash hne]
  simpa using hdot

/-- What follows a whole component: nothing, or a slash. -/
def AtSlash (tail : QString) : Prop := tail = [] ∨ ∃ t, tail = '/' :: t

theorem pathComponents_names_append {c tail : QString} (h : Names c) (htail : AtSlash tail) :
    pathComponents (c ++ tail) = c :: pathComponents tail := by
  rcases htail with rfl | ⟨t, rfl⟩
  · rw [List.append_nil, pathComponents_of_names h]
    rfl
  · rw [pathComponents_append, pathComponents_of_names h, pathComponents_slash]
    rfl

theorem atSlash_dropWhile (l : QString) : AtSlash (l.dropWhile (· ≠ '/')) := by
  induction l with
  | nil => exact .inl rfl
  | cons c l ih =>
    by_cases hc : c = '/'
    · exact .inr ⟨l, by rw [List.dropWhile_cons_of_neg (by simpa using hc), hc]⟩
    · rw [List.dropWhile_cons_of_pos (by simpa using hc)]
      exact ih

theorem atSlash_flatMap (cs : List QString) {tail : QString} (htail : AtSlash tail) :
    AtSlash (cs.flatMap ('/' :: ·) ++ tail) := by
  cases cs with
  | nil => exact htail
  | cons c cs => exact .inr ⟨_, rfl⟩

theorem pathComponents_flatMap {cs : List QString} (h : ∀ c ∈ cs, Names c) {tail : QString}
    (htail : AtSlash tail) :
    pathComponents (cs.flatMap ('/' :: ·) ++ tail) = cs ++ pathComponents tail := by
  induction cs with
  | nil => rfl
  | cons c cs ih =>
    have hc : Names c := h c (by simp)
    rw [List.flatMap_cons, List.append_assoc, List.cons_append, pathComponents_slash,
      pathComponents_names_append hc (atSlash_flatMap cs htail), ih fun d hd => h d (by simp [hd])]
    rfl

namespace HomePath

variable (home : HomePath)

theorem names : ∀ c ∈ home.components, Names c := fun c hc =>
  have h := home.clean c hc
  ⟨h.1, h.2.1, h.2.2.2.1⟩

theorem text_root (h : home.components = []) : home.text = "/".toList := by
  simp [text, h]

theorem text_of_ne_nil (h : home.components ≠ []) :
    home.text = home.components.flatMap ('/' :: ·) := by
  simp [text, h]

theorem head_text (tail : QString) : (home.text ++ tail).head? = some '/' := by
  by_cases h : home.components = []
  · rw [home.text_root h]
    rfl
  · obtain ⟨c, cs, hcs⟩ := List.exists_cons_of_ne_nil h
    rw [home.text_of_ne_nil h, hcs]
    rfl

theorem nul_not_mem_text : ∀ c ∈ home.text, c ≠ '\x00' := by
  intro c hc
  by_cases h : home.components = []
  · rw [home.text_root h] at hc
    obtain rfl : c = '/' := by simpa using hc
    decide
  · rw [home.text_of_ne_nil h] at hc
    obtain ⟨d, hd, hcd⟩ := List.mem_flatMap.mp hc
    rcases List.mem_cons.mp hcd with rfl | hcd
    · decide
    · intro hnul
      exact (home.clean d hd).2.2.1 (hnul ▸ hcd)

theorem nativeName_text_append (tail : QString) :
    nativeName (home.text ++ tail) = home.text ++ nativeName tail := by
  unfold nativeName
  apply List.takeWhile_append_of_pos
  intro c hc
  simpa using home.nul_not_mem_text c hc

/-- The home directory, and what lies below it. -/
theorem components_text_append {tail : QString} (htail : AtSlash tail ∨ home.components = []) :
    pathComponents (home.text ++ tail) = home.components ++ pathComponents tail := by
  by_cases h : home.components = []
  · rw [home.text_root h, h]
    exact pathComponents_slash tail
  · rw [home.text_of_ne_nil h]
    exact pathComponents_flatMap home.names (htail.resolve_right h)

end HomePath

/-! ### Which files are served -/

section

variable {home : HomePath} {fs : FileSystem home} {line : QString}

theorem readFile_eq_some {path : QString} {bytes : QByteArray} (h : readFile fs path = some bytes) :
    fs.node (pathComponents (nativeName path)) = some (.file bytes) := by
  unfold readFile at h
  dsimp only at h
  split at h
  · cases h
  · split at h
    · next hnode => rw [hnode, Option.some.inj h]
    · cases h

theorem read_ofFile {path name : QString} (h : (Reply.ofFile fs path).read = some name) :
    name = nativeName path ∧ readFile fs path ≠ none := by
  unfold Reply.ofFile at h
  split at h
  · next hbytes => exact ⟨(Option.some.inj h).symm, by rw [hbytes]; simp⟩
  · cases h

theorem read_ofFile_of_ne_none {path : QString} (h : readFile fs path ≠ none) :
    (Reply.ofFile fs path).read = some (nativeName path) := by
  obtain ⟨bytes, hbytes⟩ := Option.ne_none_iff_exists'.mp h
  simp [Reply.ofFile, hbytes]

theorem payload_ofFile {path : QString} (h : (Reply.ofFile fs path).read = none) :
    (Reply.ofFile fs path).payload = [] := by
  unfold Reply.ofFile at h ⊢
  split
  · next hbytes =>
    rw [hbytes] at h
    cases h
  · rfl

/-- A file that is read is not the home directory. -/
theorem below_of_readFile {path : QString} (h : readFile fs path ≠ none) {tail : QString}
    (hpath : nativeName path = home.text ++ tail) (htail : AtSlash tail ∨ home.components = []) :
    Below home (nativeName path) := by
  obtain ⟨bytes, hbytes⟩ := Option.ne_none_iff_exists'.mp h
  have hnode := readFile_eq_some hbytes
  have hcomponents := home.components_text_append htail
  rw [← hpath] at hcomponents
  refine ⟨by rw [hpath]; exact home.head_text tail, pathComponents tail, ?_, hcomponents⟩
  intro hnil
  rw [hcomponents, hnil, List.append_nil, fs.home_directory] at hnode
  cases hnode

/-- A path that goes on in the middle of the last component leads elsewhere. -/
theorem not_below_beside {name : QString} (hroot : home.components ≠ []) {c : Char} {rest : QString}
    (hname : name = home.text ++ c :: rest) (hc : c ≠ '/') : ¬ Below home name := by
  rintro ⟨-, below, -, hbelow⟩
  obtain ⟨init, last, hinit⟩ : ∃ init last, home.components = init ++ [last] :=
    ⟨_, _, (List.dropLast_append_getLast hroot).symm⟩
  have hnames := home.names
  rw [hinit] at hnames hbelow
  have hlast : Names last := hnames last (by simp)
  -- the component that takes the place of the last one
  have hword : (c :: rest).takeWhile (· ≠ '/') = c :: rest.takeWhile (· ≠ '/') :=
    List.takeWhile_cons_of_pos (by simpa using hc)
  have hcut := List.takeWhile_append_dropWhile (p := fun d : Char => d ≠ '/') (l := c :: rest)
  rw [hword] at hcut
  have htail : AtSlash ((c :: rest).dropWhile (· ≠ '/')) := atSlash_dropWhile _
  have hlonger : Names (last ++ c :: rest.takeWhile (· ≠ '/')) := by
    refine ⟨by simp, ?_, ?_⟩
    · intro hmem
      rcases List.mem_append.mp hmem with hmem | hmem
      · exact hlast.2.1 hmem
      · rw [← hword] at hmem
        simpa using List.mem_takeWhile_imp hmem
    · intro hdot
      have hlength := congrArg List.length hdot
      have hpos := List.length_pos_iff.mpr hlast.1
      simp only [List.length_append, List.length_cons] at hlength
      have hone : (".".toList).length = 1 := rfl
      omega
  have hcomponents : pathComponents name =
      init ++ (last ++ c :: rest.takeWhile (· ≠ '/')) ::
        pathComponents ((c :: rest).dropWhile (· ≠ '/')) := by
    have hsplit : name = init.flatMap ('/' :: ·) ++
        '/' :: ((last ++ c :: rest.takeWhile (· ≠ '/')) ++ (c :: rest).dropWhile (· ≠ '/')) := by
      rw [hname, home.text_of_ne_nil hroot, hinit, List.append_assoc last, hcut]
      simp
    rw [hsplit, pathComponents_flatMap (fun d hd => hnames d (by simp [hd])) (.inr ⟨_, rfl⟩),
      pathComponents_slash, pathComponents_names_append hlonger htail]
  rw [hcomponents, List.append_assoc, List.append_cancel_left_eq] at hbelow
  injection hbelow with hhead _
  simpa using congrArg List.length hhead

theorem handleLine_of_asksFor {path : QString} (h : AsksFor line path) :
    handleLine fs line =
      if path.startsWith home.text && !path.contains "..".toList then Reply.ofFile fs path
      else {} := by
  obtain ⟨hstart, rfl⟩ := h
  obtain ⟨rest, hrest⟩ := QString.startsWith_iff.mp hstart
  have hlog : ¬ (line.trimmed = "GET_LOG".toList ∨ line.trimmed.isEmpty) := by
    rw [hrest]
    rintro (hlog | hempty)
    · injection hlog with _ hlog
      injection hlog with _ hlog
      injection hlog with _ hlog
      injection hlog with _ hlog
      injection hlog with hletter _
      exact absurd hletter (by decide)
    · cases hempty
  unfold handleLine
  dsimp only
  rw [if_neg hlog, if_pos hstart]

/-- The path begins with the text of the home directory's path. -/
theorem nativeName_of_startsWith {path : QString} (h : path.startsWith home.text = true) :
    ∃ tail, nativeName path = home.text ++ tail := by
  obtain ⟨tail, rfl⟩ := QString.startsWith_iff.mp h
  exact ⟨nativeName tail, home.nativeName_text_append tail⟩

theorem startsWith_of_nativeName {path tail : QString} (h : nativeName path = home.text ++ tail) :
    path.startsWith home.text = true := by
  obtain ⟨dropped, hdropped⟩ :=
    List.takeWhile_prefix (l := path) (p := fun c => decide (c ≠ '\x00'))
  refine QString.startsWith_iff.mpr ⟨tail ++ dropped, ?_⟩
  rw [← List.append_assoc, ← h]
  exact hdropped.symm

/-- A path that passes the two tests leads below the home directory, or beside it. -/
theorem below_or_beside {path : QString} (hasks : AsksFor line path)
    (hstart : path.startsWith home.text = true) (hdots : path.contains "..".toList = false)
    (hfile : readFile fs path ≠ none) : Below home (nativeName path) ∨ Beside fs line := by
  obtain ⟨tail, htail⟩ := nativeName_of_startsWith hstart
  by_cases hslash : AtSlash tail ∨ home.components = []
  · exact .inl (below_of_readFile hfile htail hslash)
  · right
    rw [not_or] at hslash
    cases tail with
    | nil => exact absurd (.inl rfl) hslash.1
    | cons c rest =>
      have hc : c ≠ '/' := fun hc => hslash.1 (.inr ⟨rest, by rw [hc]⟩)
      exact ⟨path, hasks, hdots, hslash.2, ⟨c, rest, htail, hc⟩, hfile⟩

theorem read_of_beside (h : Beside fs line) :
    ∃ name, (handleLine fs line).read = some name ∧ name ≠ home.text ++ "/alarm.txt".toList ∧
      ¬ Below home name := by
  obtain ⟨path, hasks, hdots, hroot, ⟨c, rest, hname, hc⟩, hfile⟩ := h
  refine ⟨nativeName path, ?_, ?_, not_below_beside hroot hname hc⟩
  · rw [handleLine_of_asksFor hasks, startsWith_of_nativeName hname, hdots]
    exact read_ofFile_of_ne_none hfile
  · rw [hname]
    intro heq
    injection List.append_cancel_left heq with hslash _
    exact hc hslash

theorem payload_of_read_eq_none (h : (handleLine fs line).read = none) :
    (handleLine fs line).payload = [] := by
  unfold handleLine at h ⊢
  dsimp only at h ⊢
  split
  · next hlog =>
    rw [if_pos hlog] at h
    exact payload_ofFile h
  · next hlog =>
    rw [if_neg hlog] at h
    split
    · next hphoto =>
      rw [if_pos hphoto] at h
      split
      · next htests =>
        rw [if_pos htests] at h
        exact payload_ofFile h
      · rfl
    · rfl

/-- What is read is the log, or the file of a photo command that passes both tests. -/
theorem read_cases {name : QString} (h : (handleLine fs line).read = some name) :
    name = home.text ++ "/alarm.txt".toList ∨
      ∃ path, AsksFor line path ∧ name = nativeName path ∧ path.startsWith home.text = true ∧
        path.contains "..".toList = false ∧ readFile fs path ≠ none := by
  unfold handleLine at h
  dsimp only at h
  split at h
  · left
    obtain ⟨rfl, -⟩ := read_ofFile h
    exact home.nativeName_text_append _
  · split at h
    · next hphoto =>
      split at h
      · next htests =>
        rw [Bool.and_eq_true, Bool.not_eq_true'] at htests
        obtain ⟨rfl, hfile⟩ := read_ofFile h
        exact .inr ⟨_, ⟨hphoto, rfl⟩, rfl, htests.1, htests.2, hfile⟩
      · cases h
    · cases h

end

/-- **What the server serves.** A command line reads the log, or a file strictly below the
    home directory, or nothing; except exactly when it names a readable file beside the
    home directory whose path begins with the text of the home directory's path. -/
theorem serves_iff {home : HomePath} (fs : FileSystem home) (line : QString) :
    ServesOnlyHome fs line ↔ ¬ Beside fs line := by
  constructor
  · intro hserves hbeside
    obtain ⟨name, hread, hlog, hbelow⟩ := read_of_beside hbeside
    exact (hserves.1 name hread).elim hlog hbelow
  · intro hbeside
    refine ⟨?_, payload_of_read_eq_none⟩
    intro name hread
    rcases read_cases hread with hlog | ⟨path, hasks, rfl, hstart, hdots, hfile⟩
    · exact .inl hlog
    · exact .inr ((below_or_beside hasks hstart hdots hfile).resolve_right hbeside)

/-- The home directory `/root`, with a file in a directory `/rootkit` beside it. -/
def rootkit : FileSystem ⟨["root".toList], by decide⟩ where
  node path :=
    if path = ["root".toList] ∨ path = ["rootkit".toList] then some .directory
    else if path = ["rootkit".toList, "passwords".toList] then some (.file [104, 105])
    else none
  home_directory := rfl

/-- **The prefix test lets the path out.** -/
theorem serves_fails :
    ¬ ServesOnlyHome rootkit "GET_PHOTO:/rootkit/passwords\n".toList ∧
    handleLine rootkit "GET_PHOTO:/rootkit/passwords\n".toList =
      { payload := [104, 105], read := some "/rootkit/passwords".toList } := by
  have hreply : handleLine rootkit "GET_PHOTO:/rootkit/passwords\n".toList =
      { payload := [104, 105], read := some "/rootkit/passwords".toList } := by decide +kernel
  refine ⟨?_, hreply⟩
  intro hserves
  rcases hserves.1 "/rootkit/passwords".toList (by rw [hreply]) with hlog | ⟨-, rest, -, hbelow⟩
  · exact absurd hlog (by decide)
  · have hcomponents : pathComponents "/rootkit/passwords".toList =
        ["rootkit".toList, "passwords".toList] := by decide +kernel
    rw [hcomponents] at hbelow
    injection hbelow with hhead _
    exact absurd hhead (by decide)

end AlarmClock

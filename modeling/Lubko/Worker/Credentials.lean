import Lubko.Lib.Conninfo
import Lubko.Lib.Decimal
import Lubko.Lib.JsonFile
import Lubko.Lib.PyText

/-!
# Database credentials

`config.py` reads the connection settings from a private file of `key=value` lines and makes a libpq
connection string of them. Its errors never contain credential values.

The file is split by `str.splitlines`, which knows more line boundaries than a line feed. A value
that contains one of the others ends there, and what is behind it is read as lines of their own: one
that is no setting is quoted in the error.

* `parse_file`, `parse_malformed` — what parsing makes of a file, value by value.
* `parse_conninfo` — libpq reads the connection string back.
* `credentials_safe_iff` — exactly when a file loads to its values, and when its error depends
  on the keys and on the kind of the port only.
-/

namespace Lubko.Worker.Credentials

open Lubko.Lib

/-! ## Settings -/

/-- `DatabaseConfig`. -/
structure DatabaseConfig where
  host : PyStr
  port : ℤ
  dbname : PyStr
  user : PyStr
  password : PyStr
  deriving DecidableEq

/-- `REQUIRED_KEYS`. -/
def REQUIRED_KEYS : List PyStr := ["host", "port", "dbname", "user", "password"]

/-- `value.replace(old, new)`, for one code point. -/
def replaceChar (old : CodePoint) (new value : PyStr) : PyStr :=
  value.flatMap fun c => if c = old then new else [c]

/-- `_quote_conninfo_value`. -/
def quoteConninfoValue (value : PyStr) : PyStr :=
  let escaped := replaceChar (CodePoint.ofChar '\'') "\\'"
    (replaceChar (CodePoint.ofChar '\\') "\\\\" value)
  "'" ++ escaped ++ "'"

/-- `str(n)`. -/
def integerText (n : ℤ) : PyStr := (intText n).map CodePoint.ofChar

/-- `DatabaseConfig.conninfo`. -/
def DatabaseConfig.conninfo (config : DatabaseConfig) : PyStr :=
  "host=" ++ quoteConninfoValue config.host ++ " " ++
    ("port=" ++ integerText config.port ++ " " ++
      ("dbname=" ++ quoteConninfoValue config.dbname ++ " " ++
        ("user=" ++ quoteConninfoValue config.user ++ " " ++
          ("password=" ++ quoteConninfoValue config.password))))

/-! ## Parsing -/

/-- The texts the interpreter puts into errors: `repr`, and the message of a
`UnicodeDecodeError`. -/
structure Python where
  repr : PyStr → PyStr
  decodeError : List UInt8 → PyStr

/-- What a line of the file is. -/
inductive Line where
  | skipped
  | malformed (content : PyStr)
  | setting (key value : PyStr)

/-- The body of the loop of `parse_database_config`. -/
def readLine (line : PyStr) : Line :=
  let content := line.strip
  if content = [] ∨ content.head? = some (CodePoint.ofChar '#') then .skipped
  else
    let parts := content.partition (CodePoint.ofChar '=')
    if !parts.2.1 || parts.1.strip = [] then .malformed content
    else .setting parts.1.strip parts.2.2.strip

/-- The assignments to the dictionary, in order. -/
abbrev Settings := List (PyStr × PyStr)

/-- `settings.get(key)`: the value assigned last. -/
def Settings.get? (settings : Settings) (key : PyStr) : Option PyStr :=
  ((settings.filter fun s => s.1 = key).getLast?).map Prod.snd

/-- The loop of `parse_database_config`. -/
def parseLines (py : Python) : List PyStr → Except PyStr Settings
  | [] => .ok []
  | line :: lines =>
    match readLine line with
    | .skipped => parseLines py lines
    | .malformed content => .error ("invalid database configuration line: " ++ py.repr content)
    | .setting key value => (parseLines py lines).map ((key, value) :: ·)

/-- `parse_database_config`. -/
def parseDatabaseConfig (py : Python) (text : PyStr) : Except PyStr Settings :=
  parseLines py (splitLines text)

/-! ## Loading -/

/-- The exceptions of `load_database_config`. -/
inductive ErrorKind where
  | fileNotFound
  | permission
  | unicodeDecode
  | value
  deriving DecidableEq

/-- An exception with its message. -/
structure LoadError where
  kind : ErrorKind
  message : PyStr
  deriving DecidableEq

/-- `", ".join(keys)`. -/
def joinKeys (keys : List PyStr) : PyStr := (", " : PyStr).intercalate keys

def notFoundMessage (path : PyStr) : PyStr := "database configuration file not found: " ++ path

def permissionMessage (path : PyStr) : PyStr :=
  "database configuration file must not be readable by group or others: " ++ path

def missingMessage (missing : List PyStr) : PyStr :=
  "database configuration file is missing required settings: " ++ joinKeys missing

def portMessage : PyStr := "database configuration setting 'port' must be an integer"

/-- The required keys that are missing from a dictionary with the given keys. -/
def missingKeys (present : PyStr → Bool) : List PyStr :=
  REQUIRED_KEYS.filter fun key => !present key

/-- `PRIVATE_MODE_MASK`, on `st_mode`. -/
def isPrivate (mode : ℕ) : Bool := mode &&& 0o077 = 0

/-- The end of `load_database_config`, on the parsed settings. -/
def configOf (values : Settings) : Except LoadError DatabaseConfig :=
  let missing := missingKeys fun key => (values.get? key).isSome
  if missing ≠ [] then .error ⟨.value, missingMessage missing⟩
  else
    match ((values.get? "port").getD []).int? with
    | none => .error ⟨.value, portMessage⟩
    | some port =>
      .ok ⟨(values.get? "host").getD [], port, (values.get? "dbname").getD [],
        (values.get? "user").getD [], (values.get? "password").getD []⟩

/-- `load_database_config`, on the mode and the bytes of the file, or none. -/
def loadDatabaseConfig (py : Python) (path : PyStr) (file : Option (ℕ × List UInt8)) :
    Except LoadError DatabaseConfig :=
  match file with
  | none => .error ⟨.fileNotFound, notFoundMessage path⟩
  | some (mode, bytes) =>
    if !isPrivate mode then .error ⟨.permission, permissionMessage path⟩
    else
      match utf8 bytes with
      | none => .error ⟨.unicodeDecode, py.decodeError bytes⟩
      | some text =>
        match parseDatabaseConfig py (universalNewlines (text.map CodePoint.ofChar)) with
        | .error message => .error ⟨.value, message⟩
        | .ok values => configOf values

/-- The message of the exception, if there is one. -/
def message? (result : Except LoadError DatabaseConfig) : Option PyStr :=
  match result with
  | .ok _ => none
  | .error e => some e.message

/-! ## Files of settings -/

/-- A line `key=value` of a text file. -/
structure Entry where
  key : List Char
  value : List Char
  deriving DecidableEq

namespace Entry

/-- The key as a Python string. -/
def keyText (entry : Entry) : PyStr := entry.key.map CodePoint.ofChar

/-- The value as a Python string. -/
def valueText (entry : Entry) : PyStr := entry.value.map CodePoint.ofChar

/-- A key that is one, and a value without line feeds, carriage returns and surrounding
whitespace. -/
structure Ok (entry : Entry) : Prop where
  key_ne_nil : entry.keyText ≠ []
  key_trimmed : entry.keyText.Trimmed
  key_line : ∀ c ∈ entry.keyText, c.isLineBreak = false
  key_sign : CodePoint.ofChar '=' ∉ entry.keyText
  key_comment : entry.keyText.head? ≠ some (CodePoint.ofChar '#')
  value_feed : '\n' ∉ entry.value
  value_return : '\r' ∉ entry.value
  value_trimmed : entry.valueText.Trimmed

/-- The line of the file. -/
def line (entry : Entry) : List Char := entry.key ++ '=' :: entry.value

/-- What `str.splitlines` takes for further lines. -/
def further (entry : Entry) : List PyStr := (splitLines entry.valueText).tail

/-- The value up to the first line boundary. -/
def firstValue (entry : Entry) : PyStr :=
  PyStr.strip (PyStr.rstrip ((splitLines entry.valueText).headD []))

/-- The value is one line. -/
def OneLine (entry : Entry) : Prop := ∀ c ∈ entry.valueText, c.isLineBreak = false

end Entry

/-- The lines joined by newlines. -/
def fileText : List Entry → List Char
  | [] => []
  | [entry] => entry.line
  | entry :: entries => entry.line ++ '\n' :: fileText entries

theorem fileText_cons (entry next : Entry) (entries : List Entry) :
    fileText (entry :: next :: entries) = entry.line ++ '\n' :: fileText (next :: entries) := rfl

/-- The file. -/
def fileBytes (entries : List Entry) : List UInt8 := utf8Encode (fileText entries)

/-! ## Reading a file back -/

/-- The setting a line makes. -/
def Line.setting? : Line → Option (PyStr × PyStr)
  | .setting key value => some (key, value)
  | _ => none

/-- The line is an error. -/
def Malformed (line : PyStr) : Prop := ∃ content, readLine line = .malformed content

theorem parseLines_ok {py : Python} {lines : List PyStr} (h : ∀ line ∈ lines, ¬ Malformed line) :
    parseLines py lines = .ok (lines.filterMap fun line => (readLine line).setting?) := by
  induction lines with
  | nil => rfl
  | cons line lines ih =>
    have hline := h line List.mem_cons_self
    have hlines := ih fun l hl => h l (List.mem_cons_of_mem line hl)
    rw [parseLines, List.filterMap_cons]
    cases hread : readLine line with
    | skipped => exact hlines
    | malformed content => exact absurd ⟨content, hread⟩ hline
    | setting key value =>
      rw [hlines]
      rfl

/-- A malformed line is an error that quotes it. -/
theorem parseLines_error {py : Python} {lines : List PyStr} (h : ∃ line ∈ lines, Malformed line) :
    ∃ content, parseLines py lines =
      .error ("invalid database configuration line: " ++ py.repr content) := by
  induction lines with
  | nil =>
    obtain ⟨line, hline, -⟩ := h
    cases hline
  | cons line lines ih =>
    rw [parseLines]
    cases hread : readLine line with
    | malformed content => exact ⟨content, rfl⟩
    | skipped =>
      obtain ⟨bad, hbad, hmalformed⟩ := h
      rcases List.mem_cons.1 hbad with rfl | hbad
      · obtain ⟨content, hcontent⟩ := hmalformed
        rw [hread] at hcontent
        cases hcontent
      · exact ih ⟨bad, hbad, hmalformed⟩
    | setting key value =>
      obtain ⟨bad, hbad, hmalformed⟩ := h
      rcases List.mem_cons.1 hbad with rfl | hbad
      · obtain ⟨content, hcontent⟩ := hmalformed
        rw [hread] at hcontent
        cases hcontent
      · obtain ⟨content, hcontent⟩ := ih ⟨bad, hbad, hmalformed⟩
        refine ⟨content, ?_⟩
        rw [hcontent]
        rfl

section Entries

variable {entry : Entry} {entries : List Entry}

theorem lineText (entry : Entry) : entry.line.map CodePoint.ofChar =
    entry.keyText ++ CodePoint.ofChar '=' :: entry.valueText := by
  rw [Entry.line, List.map_append, List.map_cons]
  rfl

/-- The lines of one entry. -/
theorem splitLines_line (h : entry.Ok) : splitLines (entry.line.map CodePoint.ofChar) =
    (entry.keyText ++ CodePoint.ofChar '=' :: (splitLines entry.valueText).headD []) ::
      entry.further := by
  have hstart : ∀ c ∈ entry.keyText ++ [CodePoint.ofChar '='], c.isLineBreak = false := by
    intro c hc
    rcases List.mem_append.1 hc with hkey | hsign
    · exact h.key_line c hkey
    · rw [List.mem_singleton.1 hsign]
      decide
  have hsplit := splitLines_prepend hstart (by simp) entry.valueText
  rw [List.append_assoc, List.append_assoc] at hsplit
  rw [lineText]
  exact hsplit

/-- The first line of an entry is a setting. -/
theorem readLine_entry (h : entry.Ok) (value : PyStr) :
    readLine (entry.keyText ++ CodePoint.ofChar '=' :: value) =
      .setting entry.keyText (PyStr.strip (PyStr.rstrip value)) := by
  have hhead : ∀ c ∈ (entry.keyText ++ [CodePoint.ofChar '=']).head?,
      CodePoint.isSpace c = false := by
    intro c hc
    obtain ⟨d, rest, hkey⟩ := List.exists_cons_of_ne_nil h.key_ne_nil
    have htrimmed := h.key_trimmed.head
    rw [hkey] at hc htrimmed
    exact htrimmed c hc
  have hstrip := strip_append hhead (by decide) value
  have hcontent : ¬ (entry.keyText ++ CodePoint.ofChar '=' :: PyStr.rstrip value = [] ∨
      (entry.keyText ++ CodePoint.ofChar '=' :: PyStr.rstrip value).head? =
        some (CodePoint.ofChar '#')) := by
    obtain ⟨d, rest, hkey⟩ := List.exists_cons_of_ne_nil h.key_ne_nil
    have hcomment := h.key_comment
    rw [hkey] at hcomment ⊢
    rintro (hnil | hhash)
    · cases hnil
    · exact hcomment hhash
  unfold readLine
  dsimp only
  rw [hstrip, if_neg hcontent, partition_append h.key_sign]
  dsimp only
  rw [h.key_trimmed.strip, if_neg (by simp [h.key_ne_nil])]

theorem not_return_of_mem (h : entry.Ok) :
    ∀ c ∈ entry.line.map CodePoint.ofChar, c.val ≠ 0x0d := by
  rw [lineText]
  intro c hc hreturn
  rcases List.mem_append.1 hc with hkey | hc
  · have hline := h.key_line c hkey
    simp [CodePoint.isLineBreak, hreturn] at hline
  · rcases List.mem_cons.1 hc with rfl | hvalue
    · revert hreturn
      decide
    · obtain ⟨d, hd, rfl⟩ := List.mem_map.1 hvalue
      have hchar : d = '\r' := Char.ext (UInt32.toNat_inj.1 hreturn)
      rw [hchar] at hd
      exact h.value_return hd

/-- A line ends in no boundary: the value ends in no whitespace. -/
theorem line_last (h : entry.Ok) : ∀ c ∈ (entry.line.map CodePoint.ofChar).getLast?,
    CodePoint.isLineBreak c = false := by
  rw [lineText]
  intro c hc
  by_contra hbreak
  rw [Bool.not_eq_false] at hbreak
  have hspace := isSpace_of_isLineBreak hbreak
  rw [List.getLast?_append_of_ne_nil _ (List.cons_ne_nil _ _)] at hc
  cases hvalue : entry.valueText with
  | nil =>
    rw [hvalue] at hc
    obtain rfl : CodePoint.ofChar '=' = c := Option.some.inj hc
    revert hbreak
    decide
  | cons d rest =>
    rw [hvalue, List.getLast?_cons_cons, ← hvalue] at hc
    rw [h.value_trimmed.last c hc] at hspace
    cases hspace

/-- The lines of the file are those of its entries. -/
theorem splitLines_fileText (h : ∀ entry ∈ entries, entry.Ok) :
    splitLines ((fileText entries).map CodePoint.ofChar) =
      entries.flatMap fun entry => splitLines (entry.line.map CodePoint.ofChar) := by
  induction entries with
  | nil => rfl
  | cons entry entries ih =>
    cases entries with
    | nil => simp [fileText]
    | cons next entries =>
      have hentry := h entry List.mem_cons_self
      have hne : entry.line.map CodePoint.ofChar ≠ [] := by
        rw [lineText]
        simp
      have hfeed : CodePoint.ofChar '\n' = 0x0a := by decide
      rw [fileText_cons, List.map_append, List.map_cons, hfeed,
        splitLines_append hne (not_return_of_mem hentry) (line_last hentry),
        ih fun e he => h e (List.mem_cons_of_mem entry he)]
      rfl

theorem universalNewlines_fileText (h : ∀ entry ∈ entries, entry.Ok) :
    universalNewlines ((fileText entries).map CodePoint.ofChar) =
      (fileText entries).map CodePoint.ofChar := by
  refine universalNewlines_eq_self ?_
  induction entries with
  | nil => simp [fileText]
  | cons entry entries ih =>
    have hentry := not_return_of_mem (h entry List.mem_cons_self)
    cases entries with
    | nil => exact hentry
    | cons next entries =>
      have hrest := ih fun e he => h e (List.mem_cons_of_mem entry he)
      rw [fileText_cons, List.map_append, List.map_cons]
      intro c hc
      rcases List.mem_append.1 hc with hc | hc
      · exact hentry c hc
      · rcases List.mem_cons.1 hc with rfl | hc
        · decide
        · exact hrest c hc

/-- The lines behind the first ones of the entries. -/
def furtherLines (entries : List Entry) : List PyStr := entries.flatMap Entry.further

/-- The assignments a file makes. -/
def assignments (entries : List Entry) : Settings :=
  entries.flatMap fun entry =>
    (entry.keyText, entry.firstValue) ::
      entry.further.filterMap fun line => (readLine line).setting?

/-- **Parsing a file**: each value up to its first line boundary, and what is behind it as lines of
their own. -/
theorem parse_file (py : Python) (h : ∀ entry ∈ entries, entry.Ok)
    (hgood : ¬ ∃ line ∈ furtherLines entries, Malformed line) :
    parseDatabaseConfig py ((fileText entries).map CodePoint.ofChar) =
      .ok (assignments entries) := by
  have hlines : ∀ line ∈ splitLines ((fileText entries).map CodePoint.ofChar),
      ¬ Malformed line := by
    intro line hline hmalformed
    rw [splitLines_fileText h] at hline
    obtain ⟨entry, hentry, hline⟩ := List.mem_flatMap.1 hline
    rw [splitLines_line (h entry hentry)] at hline
    rcases List.mem_cons.1 hline with rfl | hline
    · obtain ⟨content, hcontent⟩ := hmalformed
      rw [readLine_entry (h entry hentry)] at hcontent
      cases hcontent
    · exact hgood ⟨line, List.mem_flatMap.2 ⟨entry, hentry, hline⟩, hmalformed⟩
  rw [parseDatabaseConfig, parseLines_ok hlines, splitLines_fileText h, List.filterMap_flatMap,
    assignments]
  congr 1
  refine List.flatMap_congr fun entry hentry => ?_
  rw [splitLines_line (h entry hentry), List.filterMap_cons, readLine_entry (h entry hentry)]
  rfl

/-- A malformed line behind a value is an error that quotes it. -/
theorem parse_malformed (py : Python) (h : ∀ entry ∈ entries, entry.Ok)
    (hbad : ∃ line ∈ furtherLines entries, Malformed line) :
    ∃ content, parseDatabaseConfig py ((fileText entries).map CodePoint.ofChar) =
      .error ("invalid database configuration line: " ++ py.repr content) := by
  obtain ⟨line, hline, hmalformed⟩ := hbad
  refine parseLines_error ⟨line, ?_, hmalformed⟩
  obtain ⟨entry, hentry, hline⟩ := List.mem_flatMap.1 hline
  rw [splitLines_fileText h]
  refine List.mem_flatMap.2 ⟨entry, hentry, ?_⟩
  rw [splitLines_line (h entry hentry)]
  exact List.mem_cons_of_mem _ hline

end Entries

/-! ## What is assigned last -/

section Assigned

variable {settings : Settings} {key value : PyStr}

theorem Settings.mem_of_get? (h : settings.get? key = some value) : (key, value) ∈ settings := by
  obtain ⟨s, hs, rfl⟩ := Option.map_eq_some_iff.1 h
  obtain ⟨hmem, hkey⟩ := List.mem_filter.1 (List.mem_of_getLast? hs)
  rw [← of_decide_eq_true hkey]
  exact hmem

theorem Settings.isSome_get?_iff :
    (settings.get? key).isSome = true ↔ ∃ value, (key, value) ∈ settings := by
  constructor
  · intro h
    obtain ⟨value, hvalue⟩ := Option.isSome_iff_exists.1 h
    exact ⟨value, Settings.mem_of_get? hvalue⟩
  · rintro ⟨value, hmem⟩
    have hfilter : (key, value) ∈ settings.filter fun s => s.1 = key :=
      List.mem_filter.2 ⟨hmem, decide_eq_true rfl⟩
    rw [Settings.get?, Option.isSome_map, List.getLast?_isSome]
    exact List.ne_nil_of_mem hfilter

/-- A key assigned once. -/
theorem Settings.get?_of_nodup (hnodup : (settings.map Prod.fst).Nodup)
    (hmem : (key, value) ∈ settings) : settings.get? key = some value := by
  obtain ⟨other, hother⟩ := Option.isSome_iff_exists.1
    (Settings.isSome_get?_iff.2 ⟨value, hmem⟩)
  have hsame : (key, other) = (key, value) :=
    List.inj_on_of_nodup_map hnodup (Settings.mem_of_get? hother) hmem rfl
  obtain rfl : other = value := congrArg Prod.snd hsame
  exact hother

end Assigned

theorem mem_of_mem_dropWhile {s : PyStr} {c : CodePoint} (h : c ∈ s.dropWhile CodePoint.isSpace) :
    c ∈ s :=
  (List.dropWhile_suffix _).subset h

theorem mem_of_mem_rstrip {s : PyStr} {c : CodePoint} (h : c ∈ PyStr.rstrip s) : c ∈ s :=
  List.mem_reverse.1 (mem_of_mem_dropWhile (List.mem_reverse.1 h))

theorem mem_of_mem_strip {s : PyStr} {c : CodePoint} (h : c ∈ s.strip) : c ∈ s :=
  mem_of_mem_dropWhile (mem_of_mem_rstrip h)

/-- The value of a setting is part of its line. -/
theorem mem_line_of_mem_value {line key value : PyStr} {c : CodePoint}
    (h : readLine line = .setting key value) (hc : c ∈ value) : c ∈ line := by
  unfold readLine at h
  dsimp only at h
  split_ifs at h
  injection h with hkey hvalue
  rw [← hvalue] at hc
  exact mem_of_mem_strip (List.mem_of_mem_drop (mem_of_mem_strip hc))

theorem setting?_eq_some {line key value : PyStr} :
    (readLine line).setting? = some (key, value) ↔ readLine line = .setting key value := by
  cases hread : readLine line with
  | skipped => simp [Line.setting?]
  | malformed content => simp [Line.setting?]
  | setting k v => simp [Line.setting?]

theorem mem_assignments {entries : List Entry} {key value : PyStr} :
    (key, value) ∈ assignments entries ↔
      (∃ entry ∈ entries, entry.keyText = key ∧ entry.firstValue = value) ∨
      ∃ line ∈ furtherLines entries, readLine line = .setting key value := by
  simp only [assignments, furtherLines, List.mem_flatMap, List.mem_cons, List.mem_filterMap,
    setting?_eq_some, Prod.mk.injEq]
  constructor
  · rintro ⟨entry, hentry, ⟨hkey, hvalue⟩ | ⟨line, hline, hread⟩⟩
    · exact .inl ⟨entry, hentry, hkey.symm, hvalue.symm⟩
    · exact .inr ⟨line, ⟨entry, hentry, hline⟩, hread⟩
  · rintro (⟨entry, hentry, hkey, hvalue⟩ | ⟨line, ⟨entry, hentry, hline⟩, hread⟩)
    · exact ⟨entry, hentry, .inl ⟨hkey.symm, hvalue.symm⟩⟩
    · exact ⟨entry, hentry, .inr ⟨line, hline, hread⟩⟩

/-- **Every assigned value is one line.** -/
theorem not_isLineBreak_of_assignment {entries : List Entry} {key value : PyStr}
    (h : (key, value) ∈ assignments entries) : ∀ c ∈ value, c.isLineBreak = false := by
  intro c hc
  rcases mem_assignments.1 h with ⟨entry, -, -, rfl⟩ | ⟨line, hline, hread⟩
  · have hfirst := mem_of_mem_rstrip (mem_of_mem_strip hc)
    cases hlines : splitLines entry.valueText with
    | nil =>
      rw [hlines] at hfirst
      cases hfirst
    | cons first rest =>
      rw [hlines] at hfirst
      have hmem : first ∈ splitLines entry.valueText := by
        rw [hlines]
        exact List.mem_cons_self
      exact not_isLineBreak_of_mem hmem c hfirst
  · obtain ⟨entry, -, hmem⟩ := List.mem_flatMap.1 hline
    exact not_isLineBreak_of_mem (List.mem_of_mem_tail hmem) c (mem_line_of_mem_value hread hc)

/-! ## One line per value -/

theorem Entry.splitLines_valueText {entry : Entry} (h : entry.OneLine) :
    splitLines entry.valueText = [] ∧ entry.valueText = [] ∨
      splitLines entry.valueText = [entry.valueText] := by
  cases hvalue : entry.valueText with
  | nil => exact .inl ⟨rfl, rfl⟩
  | cons c rest =>
    refine .inr (splitLines_eq_self ?_ (List.cons_ne_nil c rest))
    rw [← hvalue]
    exact h

theorem Entry.further_of_oneLine {entry : Entry} (h : entry.OneLine) : entry.further = [] := by
  rcases Entry.splitLines_valueText h with ⟨hlines, -⟩ | hlines
  · rw [Entry.further, hlines]
    rfl
  · rw [Entry.further, hlines]
    rfl

theorem Entry.firstValue_of_oneLine {entry : Entry} (hok : entry.Ok) (h : entry.OneLine) :
    entry.firstValue = entry.valueText := by
  have hhead : (splitLines entry.valueText).headD [] = entry.valueText := by
    rcases Entry.splitLines_valueText h with ⟨hlines, hvalue⟩ | hlines
    · rw [hlines, hvalue]
      rfl
    · rw [hlines]
      rfl
  rw [Entry.firstValue, hhead, hok.value_trimmed.rstrip, hok.value_trimmed.strip]

theorem furtherLines_of_oneLine {entries : List Entry} (h : ∀ entry ∈ entries, entry.OneLine) :
    furtherLines entries = [] := by
  rw [furtherLines, List.flatMap_eq_nil_iff]
  exact fun entry hentry => Entry.further_of_oneLine (h entry hentry)

theorem assignments_of_oneLine {entries : List Entry} (hok : ∀ entry ∈ entries, entry.Ok)
    (h : ∀ entry ∈ entries, entry.OneLine) :
    assignments entries = entries.map fun entry => (entry.keyText, entry.valueText) := by
  rw [assignments, List.map_eq_flatMap]
  refine List.flatMap_congr fun entry hentry => ?_
  rw [Entry.further_of_oneLine (h entry hentry),
    Entry.firstValue_of_oneLine (hok entry hentry) (h entry hentry)]
  rfl

/-! ## Files -/

/-- A file of `key=value` lines with distinct keys. -/
structure CredentialFile where
  entries : List Entry
  entry_ok : ∀ entry ∈ entries, entry.Ok
  keys_nodup : (entries.map Entry.keyText).Nodup

namespace CredentialFile

variable (file : CredentialFile)

/-- The keys that are present. -/
def keys : List PyStr := file.entries.map Entry.keyText

/-- The value given for a key. -/
def value (key : PyStr) : PyStr :=
  ((file.entries.find? fun entry => entry.keyText = key).map Entry.valueText).getD []

/-- Whether the port given is an integer. -/
def portIsInteger : Bool := (file.value "port").int?.isSome

/-- Every value is one line. -/
def OneLine : Prop := ∀ entry ∈ file.entries, entry.OneLine

/-- The settings given, with the port as an integer. -/
def given (port : ℤ) : DatabaseConfig :=
  ⟨file.value "host", port, file.value "dbname", file.value "user", file.value "password"⟩

/-- Loading the file, under its mode. -/
def load (py : Python) (path : PyStr) (mode : ℕ) : Except LoadError DatabaseConfig :=
  loadDatabaseConfig py path (some (mode, fileBytes file.entries))

/-- The value of `port` that is assigned last. -/
def lastPort : PyStr := ((assignments file.entries).get? "port").getD []

variable {file}

theorem value_of_mem {entry : Entry} (h : entry ∈ file.entries) :
    file.value entry.keyText = entry.valueText := by
  obtain ⟨found, hfound⟩ := Option.isSome_iff_exists.1
    (List.find?_isSome.2 ⟨entry, h, decide_eq_true rfl⟩ :
      (file.entries.find? fun e => e.keyText = entry.keyText).isSome = true)
  have hkey := List.find?_some hfound
  rw [decide_eq_true_eq] at hkey
  have hsame : found = entry :=
    List.inj_on_of_nodup_map file.keys_nodup (List.mem_of_find?_eq_some hfound) h hkey
  rw [value, hfound, hsame]
  rfl

theorem value_of_not_mem {key : PyStr} (h : key ∉ file.keys) : file.value key = [] := by
  have hnone : (file.entries.find? fun e => e.keyText = key) = none := by
    rw [List.find?_eq_none]
    intro entry hentry hkey
    rw [decide_eq_true_eq] at hkey
    exact h (List.mem_map.2 ⟨entry, hentry, hkey⟩)
  rw [value, hnone]
  rfl

/-- The values of a file of one-line values are those given. -/
theorem get?_of_oneLine (h : file.OneLine) (key : PyStr) :
    ((assignments file.entries).get? key).getD [] = file.value key := by
  rw [assignments_of_oneLine file.entry_ok h]
  by_cases hkey : key ∈ file.keys
  · obtain ⟨entry, hentry, rfl⟩ := List.mem_map.1 hkey
    have hnodup : ((file.entries.map fun e => (e.keyText, e.valueText)).map Prod.fst).Nodup := by
      rw [List.map_map]
      exact file.keys_nodup
    have hmem : (entry.keyText, entry.valueText) ∈
        file.entries.map fun e => (e.keyText, e.valueText) := List.mem_map.2 ⟨entry, hentry, rfl⟩
    rw [Settings.get?_of_nodup hnodup hmem, value_of_mem hentry]
    rfl
  · have hnone : Settings.get? (file.entries.map fun e => (e.keyText, e.valueText)) key = none := by
      by_contra hsome
      obtain ⟨value, hmem⟩ := Settings.isSome_get?_iff.1 (Option.isSome_iff_ne_none.2 hsome)
      obtain ⟨entry, hentry, hpair⟩ := List.mem_map.1 hmem
      exact hkey (List.mem_map.2 ⟨entry, hentry, congrArg Prod.fst hpair⟩)
    rw [hnone, value_of_not_mem hkey]
    rfl

end CredentialFile

/-! ## Messages -/

/-- The message of settings that lack some keys and whose port is an integer or not. -/
def settingsMessage (missing : List PyStr) (portIsInteger : Bool) : Option PyStr :=
  if missing ≠ [] then some (missingMessage missing)
  else if portIsInteger then none
  else some portMessage

/-- What the message may depend on: the path, the mode, the keys and the kind of the port. -/
def expectedMessage (path : PyStr) (mode : ℕ) (keys : List PyStr) (portIsInteger : Bool) :
    Option PyStr :=
  if !isPrivate mode then some (permissionMessage path)
  else settingsMessage (missingKeys fun key => keys.contains key) portIsInteger

/-- Every message that does not quote a line starts with a `d`. -/
theorem head_expectedMessage {path : PyStr} {mode : ℕ} {keys : List PyStr} {portIsInteger : Bool}
    {message : PyStr} (h : expectedMessage path mode keys portIsInteger = some message) :
    message.head? = some (CodePoint.ofChar 'd') := by
  unfold expectedMessage settingsMessage at h
  split_ifs at h
  · rw [← Option.some.inj h]
    rfl
  · rw [← Option.some.inj h]
    rfl
  · rw [← Option.some.inj h]
    rfl

theorem missingKeys_mem_sublists (present : PyStr → Bool) :
    missingKeys present ∈ REQUIRED_KEYS.sublists :=
  List.mem_sublists.2 List.filter_sublist

theorem missingMessage_inj {present present' : PyStr → Bool}
    (h : missingMessage (missingKeys present) = missingMessage (missingKeys present')) :
    missingKeys present = missingKeys present' := by
  have hall : ∀ a ∈ REQUIRED_KEYS.sublists, ∀ b ∈ REQUIRED_KEYS.sublists,
      missingMessage a = missingMessage b → a = b := by decide +kernel
  exact hall _ (missingKeys_mem_sublists present) _ (missingKeys_mem_sublists present') h

theorem missingMessage_ne_portMessage (present : PyStr → Bool) :
    missingMessage (missingKeys present) ≠ portMessage := by
  have hall : ∀ a ∈ REQUIRED_KEYS.sublists, missingMessage a ≠ portMessage := by decide +kernel
  exact hall _ (missingKeys_mem_sublists present)

/-- Which keys are missing can be read off the message, and the kind of the port if none is. -/
theorem settingsMessage_eq_iff {present present' : PyStr → Bool} {p p' : Bool} :
    settingsMessage (missingKeys present) p = settingsMessage (missingKeys present') p' ↔
      missingKeys present = missingKeys present' ∧ (missingKeys present' = [] → p = p') := by
  constructor
  · intro h
    by_cases hmissing : missingKeys present = []
    · by_cases hmissing' : missingKeys present' = []
      · refine ⟨hmissing.trans hmissing'.symm, fun _ => ?_⟩
        rw [settingsMessage, settingsMessage, if_neg (not_not.2 hmissing),
          if_neg (not_not.2 hmissing')] at h
        cases p <;> cases p' <;> first | rfl | cases h
      · rw [settingsMessage, settingsMessage, if_neg (not_not.2 hmissing), if_pos hmissing'] at h
        cases p
        · exact absurd (Option.some.inj h).symm (missingMessage_ne_portMessage present')
        · cases h
    · by_cases hmissing' : missingKeys present' = []
      · rw [settingsMessage, settingsMessage, if_pos hmissing, if_neg (not_not.2 hmissing')] at h
        cases p'
        · exact absurd (Option.some.inj h) (missingMessage_ne_portMessage present)
        · cases h
      · rw [settingsMessage, settingsMessage, if_pos hmissing, if_pos hmissing'] at h
        exact ⟨missingMessage_inj (Option.some.inj h), fun hnil => absurd hnil hmissing'⟩
  · rintro ⟨hsame, hport⟩
    rw [settingsMessage, settingsMessage, hsame]
    by_cases hmissing : missingKeys present' = []
    · rw [hport hmissing]
    · rw [if_pos hmissing, if_pos hmissing]

theorem message?_configOf (values : Settings) : message? (configOf values) =
    settingsMessage (missingKeys fun key => (values.get? key).isSome)
      ((values.get? "port").getD []).int?.isSome := by
  unfold configOf settingsMessage
  dsimp only
  split_ifs with hmissing hport
  · rfl
  · obtain ⟨port, hport⟩ := Option.isSome_iff_exists.1 hport
    rw [hport]
    rfl
  · rw [Option.not_isSome_iff_eq_none.1 hport]
    rfl

namespace CredentialFile

variable {file : CredentialFile} (py : Python) (path : PyStr) {mode : ℕ}

/-- Nothing behind a value changes the message: no line is malformed, no line assigns a required key
the file lacks, and the port assigned last is of the kind of the one given. -/
structure Harmless (file : CredentialFile) : Prop where
  lines : ¬ ∃ line ∈ furtherLines file.entries, Malformed line
  keys : ∀ key ∈ REQUIRED_KEYS,
    (∃ line ∈ furtherLines file.entries, ∃ value, readLine line = .setting key value) →
      key ∈ file.keys
  port : (∀ key ∈ REQUIRED_KEYS, key ∈ file.keys) → file.lastPort.int?.isSome = file.portIsInteger

theorem harmless_of_oneLine (h : file.OneLine) : file.Harmless where
  lines := by
    rw [furtherLines_of_oneLine h]
    rintro ⟨line, hline, -⟩
    cases hline
  keys := by
    rw [furtherLines_of_oneLine h]
    rintro key - ⟨line, hline, -⟩
    cases hline
  port _ := by rw [lastPort, get?_of_oneLine h, portIsInteger]

/-- Loading a private file is parsing its text. -/
theorem load_private (hmode : isPrivate mode = true) : file.load py path mode =
    match parseDatabaseConfig py ((fileText file.entries).map CodePoint.ofChar) with
    | .error message => .error ⟨.value, message⟩
    | .ok values => configOf values := by
  rw [load, loadDatabaseConfig, hmode, Bool.not_true, if_neg Bool.false_ne_true, fileBytes,
    utf8_utf8Encode]
  dsimp only
  rw [universalNewlines_fileText file.entry_ok]

theorem load_of_lines (hmode : isPrivate mode = true)
    (hlines : ¬ ∃ line ∈ furtherLines file.entries, Malformed line) :
    file.load py path mode = configOf (assignments file.entries) := by
  rw [load_private py path hmode, parse_file py file.entry_ok hlines]

/-- The keys a file of well-formed lines ends up with. -/
theorem isSome_get?_assignments (key : PyStr) :
    ((assignments file.entries).get? key).isSome = true ↔ key ∈ file.keys ∨
      ∃ line ∈ furtherLines file.entries, ∃ value, readLine line = .setting key value := by
  rw [Settings.isSome_get?_iff]
  simp only [mem_assignments, keys, List.mem_map]
  constructor
  · rintro ⟨value, ⟨entry, hentry, hkey, -⟩ | ⟨line, hline, hread⟩⟩
    · exact .inl ⟨entry, hentry, hkey⟩
    · exact .inr ⟨line, hline, value, hread⟩
  · rintro (⟨entry, hentry, hkey⟩ | ⟨line, hline, value, hread⟩)
    · exact ⟨entry.firstValue, .inl ⟨entry, hentry, hkey, rfl⟩⟩
    · exact ⟨value, .inr ⟨line, hline, hread⟩⟩

theorem missingKeys_eq_nil {present : PyStr → Bool} :
    missingKeys present = [] ↔ ∀ key ∈ REQUIRED_KEYS, present key = true := by
  rw [missingKeys, List.filter_eq_nil_iff]
  simp

/-- The keys missing after parsing are those the file lacks. -/
theorem missingKeys_assignments (h : ∀ key ∈ REQUIRED_KEYS,
    (∃ line ∈ furtherLines file.entries, ∃ value, readLine line = .setting key value) →
      key ∈ file.keys) :
    (missingKeys fun key => ((assignments file.entries).get? key).isSome) =
      missingKeys fun key => file.keys.contains key := by
  refine List.filter_congr fun key hkey => ?_
  congr 1
  rw [Bool.eq_iff_iff, isSome_get?_assignments, List.contains_iff_mem]
  constructor
  · rintro (hgiven | hfurther)
    · exact hgiven
    · exact h key hkey hfurther
  · exact .inl

/-- **The message of a private file** is the one its keys and its port say, if nothing behind a
value changes it. -/
theorem message_private_iff (hmode : isPrivate mode = true) :
    message? (file.load py path mode) =
      expectedMessage path mode file.keys file.portIsInteger ↔ file.Harmless := by
  by_cases hlines : ∃ line ∈ furtherLines file.entries, Malformed line
  · refine iff_of_false ?_ fun h => h.lines hlines
    obtain ⟨content, hcontent⟩ := parse_malformed py file.entry_ok hlines
    rw [load_private py path hmode, hcontent]
    intro h
    have hhead := head_expectedMessage h.symm
    rw [PyStr.ofString] at hhead
    exact absurd (Option.some.inj hhead) (by decide)
  · rw [load_of_lines py path hmode hlines, message?_configOf, expectedMessage, hmode,
      Bool.not_true, if_neg Bool.false_ne_true, settingsMessage_eq_iff]
    constructor
    · rintro ⟨hmissing, hport⟩
      refine ⟨hlines, ?_, ?_⟩
      · intro key hkey hfurther
        by_contra habsent
        have hmem : key ∈ missingKeys fun k => file.keys.contains k :=
          List.mem_filter.2 ⟨hkey, by simpa using habsent⟩
        rw [← hmissing] at hmem
        have hpresent := (@isSome_get?_assignments file key).2 (.inr hfurther)
        rw [missingKeys, List.mem_filter, hpresent] at hmem
        cases hmem.2
      · intro hall
        refine hport (missingKeys_eq_nil.2 fun key hkey => ?_)
        exact List.contains_iff_mem.2 (hall key hkey)
    · intro h
      refine ⟨missingKeys_assignments h.keys, fun hnil => h.port fun key hkey => ?_⟩
      exact List.contains_iff_mem.1 (missingKeys_eq_nil.1 hnil key hkey)

/-- **Values of one line are loaded as they are.** -/
theorem load_of_oneLine (hmode : isPrivate mode = true)
    (hkeys : ∀ key ∈ REQUIRED_KEYS, key ∈ file.keys) (h : file.OneLine) {port : ℤ}
    (hport : (file.value "port").int? = some port) : file.load py path mode = .ok (file.given port) := by
  have hharmless := harmless_of_oneLine h
  have hmissing : (missingKeys fun key => ((assignments file.entries).get? key).isSome) = [] := by
    rw [missingKeys_assignments hharmless.keys]
    exact missingKeys_eq_nil.2 fun key hkey => List.contains_iff_mem.2 (hkeys key hkey)
  rw [load_of_lines py path hmode hharmless.lines, configOf, hmissing, if_neg (not_not.2 rfl)]
  simp only [get?_of_oneLine h]
  rw [hport]
  rfl

/-- The values a file loads are those it assigns last. -/
theorem load_eq_ok {config : DatabaseConfig} (h : file.load py path mode = .ok config) :
    config.host = ((assignments file.entries).get? "host").getD [] ∧
    config.dbname = ((assignments file.entries).get? "dbname").getD [] ∧
    config.user = ((assignments file.entries).get? "user").getD [] ∧
    config.password = ((assignments file.entries).get? "password").getD [] := by
  by_cases hmode : isPrivate mode = true
  · by_cases hlines : ∃ line ∈ furtherLines file.entries, Malformed line
    · obtain ⟨content, hcontent⟩ := parse_malformed py file.entry_ok hlines
      rw [load_private py path hmode, hcontent] at h
      cases h
    · rw [load_of_lines py path hmode hlines, configOf] at h
      split_ifs at h
      split at h
      · cases h
      · cases h
        exact ⟨rfl, rfl, rfl, rfl⟩
  · rw [Bool.not_eq_true] at hmode
    rw [load, loadDatabaseConfig, hmode] at h
    cases h

/-- No value that is assigned contains a line boundary. -/
theorem not_isLineBreak_of_get? (key : PyStr) :
    ∀ c ∈ ((assignments file.entries).get? key).getD [], c.isLineBreak = false := by
  cases hget : (assignments file.entries).get? key with
  | none =>
    intro c hc
    cases hc
  | some value => exact not_isLineBreak_of_assignment (Settings.mem_of_get? hget)

/-- A file of the five settings that loads to its values has one line for each. -/
theorem oneLine_of_load (hkeys : file.keys.Perm REQUIRED_KEYS) {port : ℤ}
    (hport : (file.value "port").int? = some port)
    (h : file.load py path mode = .ok (file.given port)) : file.OneLine := by
  obtain ⟨hhost, hdbname, huser, hpassword⟩ := load_eq_ok py path h
  change file.value "host" = _ at hhost
  change file.value "dbname" = _ at hdbname
  change file.value "user" = _ at huser
  change file.value "password" = _ at hpassword
  have hvalue : ∀ key ∈ REQUIRED_KEYS, ∀ c ∈ file.value key, c.isLineBreak = false := by
    intro key hkey
    simp only [REQUIRED_KEYS, List.mem_cons, List.not_mem_nil, or_false] at hkey
    rcases hkey with rfl | rfl | rfl | rfl | rfl
    · rw [hhost]
      exact not_isLineBreak_of_get? _
    · by_cases hmem : (PyStr.ofString "port") ∈ file.keys
      · obtain ⟨entry, hentry, hkey⟩ := List.mem_map.1 hmem
        have hentryValue := value_of_mem hentry
        rw [hkey] at hentryValue
        rw [hentryValue] at hport ⊢
        exact not_isLineBreak_of_int (file.entry_ok entry hentry).value_trimmed hport
      · rw [value_of_not_mem hmem]
        intro c hc
        cases hc
    · rw [hdbname]
      exact not_isLineBreak_of_get? _
    · rw [huser]
      exact not_isLineBreak_of_get? _
    · rw [hpassword]
      exact not_isLineBreak_of_get? _
  intro entry hentry
  have hkey : entry.keyText ∈ REQUIRED_KEYS :=
    hkeys.subset (List.mem_map.2 ⟨entry, hentry, rfl⟩)
  have hline := hvalue entry.keyText hkey
  rw [value_of_mem hentry] at hline
  exact hline

end CredentialFile

/-! ## Connection strings -/

/-- A quoted value is its escaped text between quotes. -/
theorem quoteConninfoValue_eq (value : PyStr) : quoteConninfoValue value =
    CodePoint.ofChar '\'' :: (Conninfo.escape value ++ [CodePoint.ofChar '\'']) := by
  have hescape : replaceChar (CodePoint.ofChar '\'') "\\'"
      (replaceChar (CodePoint.ofChar '\\') "\\\\" value) = Conninfo.escape value := by
    rw [replaceChar, replaceChar, List.flatMap_assoc, Conninfo.escape]
    refine List.flatMap_congr fun c _ => ?_
    by_cases hslash : c = CodePoint.ofChar '\\'
    · rw [hslash]
      decide
    · by_cases hquote : c = CodePoint.ofChar '\''
      · rw [hquote]
        decide
      · rw [if_neg hslash, if_neg (not_or.2 ⟨hslash, hquote⟩), List.flatMap_singleton,
          if_neg hquote]
  rw [quoteConninfoValue, hescape]
  rfl

/-- The text of an integer is read without quotes. -/
theorem plain_of_mem_integerText {n : ℤ} {c : CodePoint} (h : c ∈ integerText n) :
    Conninfo.isBlank c = false ∧ c ≠ CodePoint.ofChar '\\' ∧ c ≠ CodePoint.ofChar '\'' ∧ c ≠ 0 := by
  have hdigit : ∀ d : Char, d.isDigit = true → Conninfo.isBlank (CodePoint.ofChar d) = false ∧
      CodePoint.ofChar d ≠ CodePoint.ofChar '\\' ∧ CodePoint.ofChar d ≠ CodePoint.ofChar '\'' ∧
      CodePoint.ofChar d ≠ 0 := by
    intro d hd
    obtain ⟨hlow, hhigh⟩ := isDigit_bounds hd
    have hval : (CodePoint.ofChar d).val = d.toNat := rfl
    refine ⟨?_, ?_, ?_, ?_⟩
    · simp only [Conninfo.isBlank, hval, Bool.or_eq_false_iff, Bool.and_eq_false_iff,
        decide_eq_false_iff_not]
      omega
    · rintro heq
      have hnat : d.toNat = 0x5c := congrArg Fin.val heq
      omega
    · rintro heq
      have hnat : d.toNat = 0x27 := congrArg Fin.val heq
      omega
    · rintro heq
      have hnat : d.toNat = 0 := congrArg Fin.val heq
      omega
  rw [integerText, intText] at h
  obtain ⟨d, hd, rfl⟩ := List.mem_map.1 h
  split_ifs at hd
  · rcases List.mem_cons.1 hd with rfl | hd
    · decide
    · exact hdigit d (isDigit_of_mem_toDigits hd)
  · exact hdigit d (isDigit_of_mem_toDigits hd)

/-- A quoted setting before others. -/
theorem settingsFrom_quotedSetting (start keyword : PyStr)
    (hstart : start = keyword ++ [CodePoint.ofChar '=']) (hne : keyword ≠ [])
    (hkey : keyword.all Conninfo.inKeyword = true) (fuel : ℕ) (value rest : PyStr) :
    Conninfo.settingsFrom (fuel + 1) (start ++ quoteConninfoValue value ++ " " ++ rest) =
        (Conninfo.settingsFrom fuel rest).map ((keyword, value) :: ·) := by
  have hblank : Conninfo.settingsFrom fuel (CodePoint.ofChar ' ' :: rest) =
      Conninfo.settingsFrom fuel rest := Conninfo.settingsFrom_blank (by decide) fuel rest
  have hspace : PyStr.ofString " " = [CodePoint.ofChar ' '] := rfl
  rw [← hblank, ← Conninfo.settingsFrom_quoted hne (List.all_eq_true.1 hkey),
    quoteConninfoValue_eq, hstart, hspace]
  simp

/-- The port before other settings. -/
theorem settingsFrom_port (fuel : ℕ) (port : ℤ) (rest : PyStr) :
    Conninfo.settingsFrom (fuel + 1) ("port=" ++ integerText port ++ " " ++ rest) =
      (Conninfo.settingsFrom fuel rest).map ((PyStr.ofString "port", integerText port) :: ·) := by
  have hkey : (PyStr.ofString "port").all Conninfo.inKeyword = true := by decide
  have hne : integerText port ≠ [] := by
    rw [integerText, intText]
    split_ifs <;> simp [Nat.toDigits_ne_nil]
  have hplain := fun c (hc : c ∈ integerText port) =>
    let h := plain_of_mem_integerText hc
    (⟨h.1, h.2.1, h.2.2.1⟩ : _ ∧ _ ∧ _)
  rw [← Conninfo.settingsFrom_bare (by decide) (List.all_eq_true.1 hkey) hne hplain]
  have hstart : PyStr.ofString "port=" = PyStr.ofString "port" ++ [CodePoint.ofChar '='] := rfl
  have hspace : PyStr.ofString " " = [CodePoint.ofChar ' '] := rfl
  rw [hstart, hspace]
  simp

/-- The settings with their keywords, the port as a text. -/
def DatabaseConfig.settings (config : DatabaseConfig) : List (PyStr × PyStr) :=
  [("host", config.host), ("port", integerText config.port), ("dbname", config.dbname),
    ("user", config.user), ("password", config.password)]

/-- What `conninfo()` makes is read back, setting by setting. -/
theorem settingsFrom_conninfo (config : DatabaseConfig) :
    Conninfo.settingsFrom 6 config.conninfo = some config.settings := by
  have hlast : Conninfo.settingsFrom 2 ("password=" ++ quoteConninfoValue config.password) =
      some [(PyStr.ofString "password", config.password)] := by
    have hread := Conninfo.settingsFrom_quoted (by decide : PyStr.ofString "password" ≠ [])
      (List.all_eq_true.1 (by decide)) 1 config.password []
    rw [quoteConninfoValue_eq]
    exact hread
  rw [DatabaseConfig.conninfo,
    settingsFrom_quotedSetting "host=" "host" rfl (by decide) (by decide), settingsFrom_port,
    settingsFrom_quotedSetting "dbname=" "dbname" rfl (by decide) (by decide),
    settingsFrom_quotedSetting "user=" "user" rfl (by decide) (by decide), hlast]
  rfl

theorem not_nul_of_mem_quote {value : PyStr} (h : 0 ∉ value) : 0 ∉ quoteConninfoValue value := by
  rw [quoteConninfoValue_eq, List.mem_cons, List.mem_append, List.mem_singleton, Conninfo.escape,
    List.mem_flatMap]
  rintro (hquote | ⟨c, hc, hzero⟩ | hquote)
  · revert hquote
    decide
  · split_ifs at hzero
    · rcases List.mem_cons.1 hzero with hslash | hzero
      · revert hslash
        decide
      · exact h (List.mem_singleton.1 hzero ▸ hc)
    · exact h (List.mem_singleton.1 hzero ▸ hc)
  · revert hquote
    decide

/-- **libpq reads the settings back**, as long as none contains a NUL. -/
theorem parse_conninfo {config : DatabaseConfig} (hhost : 0 ∉ config.host)
    (hdbname : 0 ∉ config.dbname) (huser : 0 ∉ config.user) (hpassword : 0 ∉ config.password) :
    Conninfo.parse config.conninfo = some config.settings := by
  have hport : 0 ∉ integerText config.port := fun h => (plain_of_mem_integerText h).2.2.2 rfl
  have hzero : ∀ c ∈ config.conninfo, decide (c ≠ 0) = true := by
    intro c hc
    rw [decide_eq_true_eq]
    rintro rfl
    refine absurd hc ?_
    have hliteral : 0 ∉ PyStr.ofString "host=" ∧ 0 ∉ PyStr.ofString "port=" ∧
        0 ∉ PyStr.ofString "dbname=" ∧ 0 ∉ PyStr.ofString "user=" ∧
        0 ∉ PyStr.ofString "password=" ∧ 0 ∉ PyStr.ofString " " := by decide
    obtain ⟨h1, h2, h3, h4, h5, h6⟩ := hliteral
    simp only [DatabaseConfig.conninfo, List.mem_append, not_or]
    exact ⟨⟨⟨h1, not_nul_of_mem_quote hhost⟩, h6⟩, ⟨⟨h2, hport⟩, h6⟩,
      ⟨⟨h3, not_nul_of_mem_quote hdbname⟩, h6⟩, ⟨⟨h4, not_nul_of_mem_quote huser⟩, h6⟩, h5,
      not_nul_of_mem_quote hpassword⟩
  have hlength : 6 ≤ config.conninfo.length + 1 := by
    have hstart : (PyStr.ofString "host=").length = 5 := rfl
    rw [DatabaseConfig.conninfo, List.length_append, List.length_append, List.length_append, hstart]
    omega
  rw [Conninfo.parse, List.takeWhile_eq_self_iff.2 hzero]
  exact Conninfo.settingsFrom_mono (settingsFrom_conninfo config) hlength

/-! ## Exact and without leaks -/

/-- No whitespace at either end, computed. -/
def checkTrimmed (s : PyStr) : Bool :=
  s.head?.all (fun c => !c.isSpace) && s.getLast?.all fun c => !c.isSpace

theorem trimmed_of_check {s : PyStr} (h : checkTrimmed s = true) : s.Trimmed := by
  rw [checkTrimmed, Bool.and_eq_true] at h
  constructor
  · intro c hc
    have hhead := h.1
    rw [Option.mem_def.1 hc] at hhead
    simpa using hhead
  · intro c hc
    have hlast := h.2
    rw [Option.mem_def.1 hc] at hlast
    simpa using hlast

/-- `Entry.Ok`, computed. -/
def Entry.check (entry : Entry) : Bool :=
  !entry.keyText.isEmpty && checkTrimmed entry.keyText &&
    entry.keyText.all (fun c => !c.isLineBreak) && !entry.keyText.contains (CodePoint.ofChar '=') &&
    decide (entry.keyText.head? ≠ some (CodePoint.ofChar '#')) && !entry.value.contains '\n' &&
    !entry.value.contains '\r' && checkTrimmed entry.valueText

theorem Entry.ok_of_check {entry : Entry} (h : entry.check = true) : entry.Ok := by
  simp only [Entry.check, Bool.and_eq_true, Bool.not_eq_true', List.all_eq_true, decide_eq_true_eq,
    ← Bool.not_eq_true, List.isEmpty_iff, List.contains_iff_mem] at h
  obtain ⟨⟨⟨⟨⟨⟨⟨hne, htrimmed⟩, hline⟩, hsign⟩, hcomment⟩, hfeed⟩, hreturn⟩, hvalue⟩ := h
  exact
    { key_ne_nil := hne
      key_trimmed := trimmed_of_check htrimmed
      key_line := fun c hc => Bool.not_eq_true _ ▸ hline c hc
      key_sign := hsign
      key_comment := hcomment
      value_feed := hfeed
      value_return := hreturn
      value_trimmed := trimmed_of_check hvalue }

namespace CredentialFile

/-- Two files that differ only in their values: the same keys are present, and the ports are both
integers or both not. -/
structure Alike (file other : CredentialFile) : Prop where
  keys : ∀ key, key ∈ file.keys ↔ key ∈ other.keys
  port : file.portIsInteger = other.portIsInteger

/-- The file of the five settings loads to them and libpq reads them back, and the message is that
of every file of one-line values that differs only in its values. -/
structure Safe (py : Python) (path : PyStr) (mode : ℕ) (file : CredentialFile) : Prop where
  exactly : isPrivate mode = true → file.keys.Perm REQUIRED_KEYS →
    ∀ port, (file.value "port").int? = some port →
      file.load py path mode = .ok (file.given port) ∧
      ((∀ key ∈ REQUIRED_KEYS, 0 ∉ file.value key) →
        Conninfo.parse (file.given port).conninfo = some (file.given port).settings)
  message : ∀ other : CredentialFile, file.Alike other → other.OneLine →
    message? (file.load py path mode) = message? (other.load py path mode)

/-- A value of one character that is an integer or not. -/
def plainValue (integer : Bool) : List Char := if integer then ['1'] else ['x']

theorem plainValue_ok (integer : Bool) :
    '\n' ∉ plainValue integer ∧ '\r' ∉ plainValue integer ∧
      checkTrimmed ((plainValue integer).map CodePoint.ofChar) = true ∧
      ((plainValue integer).map CodePoint.ofChar).all (fun c => !c.isLineBreak) = true ∧
      (PyStr.int? ((plainValue integer).map CodePoint.ofChar)).isSome = integer := by
  revert integer
  decide

/-- The file with a plain value for every key. -/
def plain (file : CredentialFile) : CredentialFile where
  entries := file.entries.map fun entry => { entry with value := plainValue file.portIsInteger }
  entry_ok := by
    intro entry hentry
    obtain ⟨e, he, rfl⟩ := List.mem_map.1 hentry
    have hok := file.entry_ok e he
    obtain ⟨hfeed, hreturn, htrimmed, -, -⟩ := plainValue_ok file.portIsInteger
    exact ⟨hok.key_ne_nil, hok.key_trimmed, hok.key_line, hok.key_sign, hok.key_comment, hfeed,
      hreturn, trimmed_of_check htrimmed⟩
  keys_nodup := by
    rw [List.map_map]
    exact file.keys_nodup

variable {file : CredentialFile}

theorem keys_plain : file.plain.keys = file.keys := List.map_map

theorem oneLine_plain : file.plain.OneLine := by
  intro entry hentry
  obtain ⟨e, -, rfl⟩ := List.mem_map.1 hentry
  obtain ⟨-, -, -, hall, -⟩ := plainValue_ok file.portIsInteger
  intro c hc
  have hline := List.all_eq_true.1 hall c hc
  rwa [Bool.not_eq_true'] at hline

theorem alike_plain : file.Alike file.plain := by
  refine ⟨fun key => by rw [keys_plain], ?_⟩
  obtain ⟨-, -, -, -, hinteger⟩ := plainValue_ok file.portIsInteger
  by_cases hport : PyStr.ofString "port" ∈ file.keys
  · rw [← keys_plain] at hport
    obtain ⟨entry, hentry, hkey⟩ := List.mem_map.1 hport
    have hvalue := value_of_mem hentry
    obtain ⟨e, -, rfl⟩ := List.mem_map.1 hentry
    rw [hkey] at hvalue
    rw [portIsInteger.eq_def file.plain, hvalue]
    exact hinteger.symm
  · have hplain : PyStr.ofString "port" ∉ file.plain.keys := by rwa [keys_plain]
    rw [portIsInteger, portIsInteger, value_of_not_mem hport, value_of_not_mem hplain]

/-- The message of a file that is not private says nothing else. -/
theorem message_not_private (py : Python) (path : PyStr) {mode : ℕ}
    (hmode : isPrivate mode = false) : message? (file.load py path mode) = some (permissionMessage path) := by
  rw [load, loadDatabaseConfig, hmode]
  rfl

theorem expectedMessage_congr {path : PyStr} {mode : ℕ} {other : CredentialFile}
    (h : file.Alike other) : expectedMessage path mode file.keys file.portIsInteger =
      expectedMessage path mode other.keys other.portIsInteger := by
  have hkeys : (fun key => file.keys.contains key) = fun key => other.keys.contains key := by
    funext key
    rw [Bool.eq_iff_iff, List.contains_iff_mem, List.contains_iff_mem]
    exact h.keys key
  rw [expectedMessage, expectedMessage, hkeys, h.port]

/-- The message is that of the plain files if nothing behind a value changes it. -/
theorem message_safe_iff (py : Python) (path : PyStr) {mode : ℕ} (hmode : isPrivate mode = true) :
    (∀ other : CredentialFile, file.Alike other → other.OneLine →
      message? (file.load py path mode) = message? (other.load py path mode)) ↔ file.Harmless := by
  constructor
  · intro h
    rw [← message_private_iff py path hmode, h file.plain alike_plain oneLine_plain,
      expectedMessage_congr alike_plain]
    exact (message_private_iff py path hmode).2 (harmless_of_oneLine oneLine_plain)
  · intro h other halike hother
    rw [(message_private_iff py path hmode).2 h,
      (message_private_iff py path hmode).2 (harmless_of_oneLine hother)]
    exact expectedMessage_congr halike

end CredentialFile

/-- **Loading a file is exact and leaks nothing** exactly when, the file being private, the values
of the five settings are one line each, and no line behind a value of any file changes its
message. -/
theorem credentials_safe_iff (py : Python) (path : PyStr) (mode : ℕ) (file : CredentialFile) :
    file.Safe py path mode ↔
      (isPrivate mode = true → file.keys.Perm REQUIRED_KEYS → file.portIsInteger = true →
        file.OneLine) ∧
      (isPrivate mode = true → file.Harmless) := by
  constructor
  · intro h
    constructor
    · intro hmode hkeys hinteger
      obtain ⟨port, hport⟩ := Option.isSome_iff_exists.1 hinteger
      exact CredentialFile.oneLine_of_load py path hkeys hport (h.exactly hmode hkeys port hport).1
    · intro hmode
      exact (CredentialFile.message_safe_iff py path hmode).1 h.message
  · rintro ⟨honeLine, hharmless⟩
    constructor
    · intro hmode hkeys port hport
      have hinteger : file.portIsInteger = true := Option.isSome_iff_exists.2 ⟨port, hport⟩
      refine ⟨CredentialFile.load_of_oneLine py path hmode (fun key hkey => hkeys.mem_iff.2 hkey)
        (honeLine hmode hkeys hinteger) hport, ?_⟩
      intro hnul
      exact parse_conninfo (hnul "host" (by decide)) (hnul "dbname" (by decide))
        (hnul "user" (by decide)) (hnul "password" (by decide))
    · cases hmode : isPrivate mode with
      | true => exact (CredentialFile.message_safe_iff py path hmode).2 (hharmless hmode)
      | false =>
        intro other _ _
        rw [CredentialFile.message_not_private py path hmode,
          CredentialFile.message_not_private py path hmode]

/-- A file of the five settings with the given password. -/
def settingsEntries (password : List Char) : List Entry :=
  [⟨"host".toList, "localhost".toList⟩, ⟨"port".toList, "5432".toList⟩,
    ⟨"dbname".toList, "lubko".toList⟩, ⟨"user".toList, "lubko".toList⟩,
    ⟨"password".toList, password⟩]

/-- A password that goes on behind a form feed. -/
def formFeedPassword : List Char := "s3cret".toList ++ '\x0c' :: "tail".toList

/-- The file of five settings with that password. -/
def formFeedFile : CredentialFile where
  entries := settingsEntries formFeedPassword
  entry_ok := by
    have hall : (settingsEntries formFeedPassword).all Entry.check = true := by decide +kernel
    exact fun entry hentry => Entry.ok_of_check (List.all_eq_true.1 hall entry hentry)
  keys_nodup := by decide +kernel

/-- It does not load, and the end of the password is quoted in the error. -/
theorem formFeed_leaks : formFeedFile.keys = REQUIRED_KEYS ∧
    formFeedFile.value "password" = formFeedPassword.map CodePoint.ofChar ∧
    (formFeedFile.value "port").int? = some 5432 ∧
    formFeedFile.load ⟨fun s => "'" ++ s ++ "'", fun _ => []⟩ "database.conf" 0o100600 =
      .error ⟨.value, PyStr.ofString "invalid database configuration line: 'tail'"⟩ := by
  decide +kernel

end Lubko.Worker.Credentials

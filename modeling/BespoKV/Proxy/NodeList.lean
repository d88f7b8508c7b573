import BespoKV.Library.Decimal
import BespoKV.Library.Text
import BespoKV.Proxy.Types
import Mathlib.Data.List.Nodup

/-!
# The datalet list

`parse_dumbnodes_std_str` reads the list of datalets of a proxy (`proxy_util.cpp`, built
without `USE_KETAMA`): one line `addr:port:role` for each datalet, and `#` begins a comment.
Lines that do not have three fields are reported and skipped.
-/

namespace BespoKV.NodeList

/-! ## Characters -/

def newline : UInt8 := 10

def hash : UInt8 := 35

def colon : UInt8 := 58

def blank : UInt8 := 32

/-- The bytes of a text. -/
def bytes (text : List Char) : Bytes := text.map fun char => UInt8.ofNat char.toNat

/-- The characters that the C library sees. -/
def chars (bytes : Bytes) : List Char := bytes.map fun byte => Char.ofNat byte.toNat

/-- The string a `char *` points to. -/
def cString (bytes : Bytes) : Bytes := bytes.takeWhile (· ≠ 0)

/-- `atoi` -/
def atoi (field : Bytes) : Int := Decimal.toInt (chars field)

/-- `std::to_string(int)` -/
def toString (n : Int) : Bytes :=
  bytes (if n < 0 then '-' :: Nat.toDigits 10 n.natAbs else Nat.toDigits 10 n.natAbs)

/-! ## The table -/

/-- `DumbNode`, without the weight, which nothing assigns in this build. -/
structure DumbNode where
  addr : Bytes
  port : Int
  replicaRole : Int
  deriving DecidableEq, Repr

/-- `addr:port` -/
def DumbNode.key (node : DumbNode) : AddrType := node.addr ++ colon :: toString node.port

/-- `DumbNodeTable_t`: keys are unique, and nothing depends on the order of the rows. -/
structure NodeTable where
  rows : List (AddrType × DumbNode) := []
  nodup : (rows.map Prod.fst).Nodup := by simp

namespace NodeTable

def find (table : NodeTable) (key : AddrType) : Option DumbNode :=
  (table.rows.find? fun row => row.1 = key).map Prod.snd

/-- `insert`, which does not overwrite. -/
def insert (table : NodeTable) (key : AddrType) (node : DumbNode) : NodeTable :=
  if present : key ∈ table.rows.map Prod.fst then
    table
  else
    { rows := table.rows ++ [(key, node)]
      nodup := by
        rw [List.map_append, List.nodup_append]
        refine ⟨table.nodup, by simp, fun other listed added isAdded same => ?_⟩
        exact present (by simpa [same, List.mem_singleton.mp isAdded] using listed) }

end NodeTable

/-! ## The parser -/

/-- `parse_each_dumbnode`; `none` is `PARSE_ERR_INVALID`. -/
def parseEachDumbnode (line : Bytes) : Option (AddrType × DumbNode) := do
  let (addr, rest) ← Text.strtok colon line
  let (port, rest) ← Text.strtok colon rest
  let (role, _) ← Text.strtok colon rest
  let node : DumbNode := ⟨addr, atoi port, atoi role⟩
  return (node.key, node)

/-- The variables of the loop of `parse_dumbnodes_std_str`, and the numbers of the lines that
were reported. -/
structure Parsing where
  lineNum : Nat := 0
  dumbList : NodeTable := {}
  failed : List Nat := []

/-- One round of the loop of `parse_dumbnodes_std_str`. -/
def Parsing.line (parsing : Parsing) (line : Bytes) : Parsing :=
  let commentPos := line.findIdx? (· = hash)
  if commentPos = some 0 then
    parsing
  else
    -- `line.resize(comment_pos)`
    let line := commentPos.elim line line.take
    let lineNum := parsing.lineNum + 1
    match parseEachDumbnode (cString line) with
    | none => { parsing with lineNum, failed := parsing.failed ++ [lineNum] }
    | some (key, node) => { parsing with lineNum, dumbList := parsing.dumbList.insert key node }

/-- `parse_dumbnodes_std_str` on the contents of the file; without a file it exits. -/
def parseDumbnodesStdStr (file : Option Bytes) : Option NodeTable :=
  file.map fun content => ((Text.lines newline content).foldl Parsing.line {}).dumbList

/-! ## What a list says -/

/-- A line for one datalet: the port may have leading zeros, and blanks may stand before the
comment. -/
structure Row where
  addr : Bytes
  zeros : Nat
  port : Nat
  role : ReplicaRole
  blanks : Nat
  comment : Option Bytes
  deriving DecidableEq, Repr

/-- The value of `replica_role_t`. -/
def roleNumber : ReplicaRole → Nat
  | .master => 0
  | .slave => 1

namespace Row

def portText (row : Row) : Bytes := bytes (Decimal.numeral row.zeros row.port)

def roleText (row : Row) : Bytes :=
  bytes (Decimal.numeral 0 (roleNumber row.role)) ++ List.replicate row.blanks blank

/-- The line up to the comment. -/
def content (row : Row) : Bytes :=
  row.addr ++ colon :: (row.portText ++ colon :: row.roleText)

def text (row : Row) : Bytes := row.content ++ row.comment.elim [] (hash :: ·)

/-- What the line says. -/
def node (row : Row) : DumbNode := ⟨row.addr, row.port, roleNumber row.role⟩

end Row

/-- A line of the list. -/
inductive Entry where
  | comment (text : Bytes)
  | malformed (text : Bytes)
  | node (row : Row)
  deriving DecidableEq, Repr

namespace Entry

def text : Entry → Bytes
  | .comment text => hash :: text
  | .malformed text => text
  | .node row => row.text

def node? : Entry → Option DumbNode
  | .comment _ | .malformed _ => none
  | .node row => some row.node

/-- A malformed line has fewer than three fields that are not empty; an address has neither a
colon nor a comment in it. -/
def Valid : Entry → Prop
  | .comment _ => True
  | .malformed text => (Text.fields colon text).length < 3
  | .node row => row.addr ≠ [] ∧ colon ∉ row.addr ∧ hash ∉ row.addr ∧ row.port < 2 ^ 31

instance : DecidablePred Valid := fun entry =>
  match entry with
  | .comment _ => isTrue trivial
  | .malformed _ => inferInstanceAs (Decidable (_ < _))
  | .node _ => inferInstanceAs (Decidable (_ ∧ _ ∧ _ ∧ _))

end Entry

/-- A file: lines that end with a newline, and possibly one more without it. -/
def file (entries : List Entry) (last : Option Entry) : Bytes :=
  (entries.map Entry.text).flatMap (fun line => line ++ [newline]) ++ last.elim [] Entry.text

/-- The first line for a key. -/
def listed (entries : List Entry) (key : AddrType) : Option DumbNode :=
  (entries.filterMap Entry.node?).find? fun node => node.key = key

/-! ## Digits -/

theorem chars_bytes {text : List Char} (narrow : ∀ char ∈ text, char.toNat < 256) :
    chars (bytes text) = text := by
  rw [chars, bytes, List.map_map]
  refine (List.map_congr_left fun char member => ?_).trans (List.map_id text)
  rw [Function.comp_apply, UInt8.toNat_ofNat', Nat.mod_eq_of_lt (narrow char member),
    Char.ofNat_toNat]
  rfl

theorem chars_numeral (zeros n : Nat) :
    chars (bytes (Decimal.numeral zeros n)) = Decimal.numeral zeros n := by
  refine chars_bytes fun char member => ?_
  have range := Decimal.digit_range (Decimal.isDigit_of_mem_numeral member)
  omega

/-- Delimiters are not digits. -/
theorem notMem_numeral {byte : UInt8} (other : byte.toNat < 48 ∨ 57 < byte.toNat)
    (zeros n : Nat) : byte ∉ bytes (Decimal.numeral zeros n) := by
  intro member
  obtain ⟨char, digit, rfl⟩ := List.mem_map.mp member
  have range := Decimal.digit_range (Decimal.isDigit_of_mem_numeral digit)
  rw [UInt8.toNat_ofNat'] at other
  omega

theorem numeral_ne_nil (zeros n : Nat) : bytes (Decimal.numeral zeros n) ≠ [] := by
  simpa [bytes] using Decimal.numeral_ne_nil zeros n

namespace Row

variable {row : Row}

theorem atoi_portText (fits : row.port < 2 ^ 31) : atoi row.portText = row.port := by
  have stops : ∀ char ∈ ([] : List Char).head?, char.isDigit = false := by simp
  have read := Decimal.toInt_numeral row.zeros fits stops
  rwa [List.append_nil, ← chars_numeral] at read

theorem atoi_roleText (row : Row) : atoi row.roleText = roleNumber row.role := by
  have fits : roleNumber row.role < 2 ^ 31 := by
    cases row.role <;> decide
  have split : chars row.roleText =
      Decimal.numeral 0 (roleNumber row.role) ++ List.replicate row.blanks ' ' := by
    rw [roleText, chars, List.map_append, List.map_replicate]
    exact congrArg (· ++ _) (chars_numeral _ _)
  rw [atoi, split]
  refine Decimal.toInt_numeral 0 fits fun char first => ?_
  rw [List.eq_of_mem_replicate (List.mem_of_mem_head? first)]
  rfl

theorem colon_notMem_roleText (row : Row) : colon ∉ row.roleText := by
  rw [roleText, List.mem_append, not_or]
  exact ⟨notMem_numeral (by decide) _ _, by simp [List.mem_replicate, blank, colon]⟩

theorem hash_notMem_content (plain : hash ∉ row.addr) : hash ∉ row.content := by
  have port : hash ∉ row.portText := notMem_numeral (by decide) _ _
  have role : hash ∉ row.roleText := by
    rw [roleText, List.mem_append, not_or]
    exact ⟨notMem_numeral (by decide) _ _, by simp [List.mem_replicate, blank, hash]⟩
  have notColon : hash ≠ colon := by decide
  simp [content, plain, port, role, notColon]

/-- A line for a datalet is parsed. -/
theorem parse_content (valid : (Entry.node row).Valid) :
    parseEachDumbnode row.content = some (row.node.key, row.node) := by
  obtain ⟨addr, noColon, _, fits⟩ := valid
  have port : colon ∉ row.portText := notMem_numeral (by decide) _ _
  have role : row.roleText ≠ [] := by
    simp [roleText, numeral_ne_nil]
  simp only [parseEachDumbnode, content, Text.strtok_field noColon addr,
    Text.strtok_field port (numeral_ne_nil _ _), Text.strtok_last row.colon_notMem_roleText role,
    Option.bind_eq_bind, Option.bind_some, atoi_portText fits, atoi_roleText]
  rfl

end Row

/-- A line with fewer than three fields is not parsed. -/
theorem parse_malformed {line : Bytes} (few : (Text.fields colon line).length < 3) :
    parseEachDumbnode line = none := by
  cases first : Text.strtok colon line with
  | none => simp [parseEachDumbnode, first]
  | some one =>
      cases second : Text.strtok colon one.2 with
      | none => simp [parseEachDumbnode, first, second]
      | some two =>
          cases third : Text.strtok colon two.2 with
          | none => simp [parseEachDumbnode, first, second, third]
          | some three =>
              rw [Text.fields_of_some first, Text.fields_of_some second,
                Text.fields_of_some third] at few
              simp only [List.length_cons] at few
              omega

/-! ## One line -/

theorem cString_of_clean {line : Bytes} (clean : 0 ∉ line) : cString line = line := by
  refine List.takeWhile_eq_self_iff.mpr fun byte member => ?_
  exact decide_eq_true fun zero => clean (zero ▸ member)

/-- A malformed line adds nothing, whether or not it has a comment. -/
theorem Parsing.line_malformed (parsing : Parsing) {line : Bytes}
    (few : (Text.fields colon line).length < 3) (clean : 0 ∉ line) :
    (parsing.line line).dumbList = parsing.dumbList := by
  simp only [Parsing.line]
  by_cases isComment : line.findIdx? (· = hash) = some 0
  · rw [if_pos isComment]
  · rw [if_neg isComment]
    generalize line.findIdx? (· = hash) = commentPos
    have cut : line = commentPos.elim line line.take ++ commentPos.elim [] line.drop := by
      cases commentPos <;> simp
    have fewer : (Text.fields colon (commentPos.elim line line.take)).length < 3 := by
      refine lt_of_le_of_lt (Text.fields_length_le_append _ (commentPos.elim [] line.drop)) ?_
      rwa [← cut]
    have cutClean : 0 ∉ commentPos.elim line line.take := by
      intro member
      apply clean
      rw [cut]
      exact List.mem_append_left _ member
    rw [cString_of_clean cutClean, parse_malformed fewer]

/-- A line for a datalet adds it, if its key is new. -/
theorem Parsing.line_node (parsing : Parsing) {row : Row} (valid : (Entry.node row).Valid)
    (clean : 0 ∉ row.text) :
    (parsing.line row.text).dumbList = parsing.dumbList.insert row.node.key row.node := by
  have plain := Row.hash_notMem_content valid.2.2.1
  have pos : row.text.findIdx? (· = hash) = row.comment.map fun _ => row.content.length := by
    have none : row.content.findIdx? (· = hash) = none := by
      rw [List.findIdx?_eq_none_iff]
      exact fun byte member => decide_eq_false fun same => plain (same ▸ member)
    rw [Row.text, List.findIdx?_append, none]
    cases row.comment <;> simp [List.findIdx?_cons]
  have later : row.text.findIdx? (· = hash) ≠ some 0 := by
    rw [pos]
    cases row.comment <;> simp [Row.content]
  have cut : (row.text.findIdx? (· = hash)).elim row.text row.text.take = row.content := by
    rw [pos, Row.text]
    cases row.comment <;> simp
  have contentClean : 0 ∉ row.content := fun member => clean (List.mem_append_left _ member)
  simp only [Parsing.line, if_neg later, cut, cString_of_clean contentClean,
    Row.parse_content valid]

/-- What one line adds to the table. -/
theorem Parsing.line_dumbList (parsing : Parsing) {entry : Entry} (valid : entry.Valid)
    (clean : 0 ∉ entry.text) : (parsing.line entry.text).dumbList =
      entry.node?.elim parsing.dumbList fun node => parsing.dumbList.insert node.key node := by
  cases entry with
  | comment text => simp [Parsing.line, Entry.text, Entry.node?, List.findIdx?_cons]
  | malformed text => exact parsing.line_malformed valid clean
  | node row => exact parsing.line_node valid clean

/-! ## The whole file -/

namespace NodeTable

theorem find_insert (table : NodeTable) (key other : AddrType) (node : DumbNode) :
    (table.insert key node).find other =
      (table.find other).or (if key = other then some node else none) := by
  unfold insert
  split
  next present =>
    by_cases same : key = other
    · subst same
      obtain ⟨row, listed, isKey⟩ := List.mem_map.mp present
      have found : (table.rows.find? fun row => row.1 = key).isSome = true :=
        List.find?_isSome.mpr ⟨row, listed, decide_eq_true isKey⟩
      obtain ⟨entry, isEntry⟩ := Option.isSome_iff_exists.mp found
      simp [find, isEntry]
    · simp [same]
  next =>
    simp only [find, List.find?_append, List.find?_singleton, Option.map_or]
    by_cases same : key = other <;> simp only [same, decide_true, decide_false, if_true, if_false,
      Bool.false_eq_true, Option.map_some, Option.map_none]

/-- Of several nodes with one key the first is kept. -/
theorem find_foldl (nodes : List DumbNode) (table : NodeTable) (key : AddrType) :
    (nodes.foldl (fun table node => table.insert node.key node) table).find key =
      (table.find key).or (nodes.find? fun node => node.key = key) := by
  induction nodes generalizing table with
  | nil => simp
  | cons node nodes ih =>
      rw [List.foldl_cons, ih, find_insert, List.find?_cons, Option.or_assoc]
      by_cases same : node.key = key <;> simp [same]

end NodeTable

theorem Parsing.lines_dumbList {entries : List Entry} (valid : ∀ entry ∈ entries, entry.Valid)
    (clean : ∀ entry ∈ entries, 0 ∉ entry.text) (parsing : Parsing) :
    ((entries.map Entry.text).foldl Parsing.line parsing).dumbList =
      (entries.filterMap Entry.node?).foldl (fun table node => table.insert node.key node)
        parsing.dumbList := by
  induction entries generalizing parsing with
  | nil => rfl
  | cons entry entries ih =>
      rw [List.forall_mem_cons] at valid clean
      rw [List.map_cons, List.foldl_cons, ih valid.2 clean.2,
        parsing.line_dumbList valid.1 clean.1]
      cases named : entry.node? with
      | none => rw [List.filterMap_cons_none named, Option.elim_none]
      | some node => rw [List.filterMap_cons_some named, Option.elim_some, List.foldl_cons]

/-- An empty line lists nothing. -/
theorem Entry.node?_of_text_nil {entry : Entry} (empty : entry.text = []) :
    entry.node? = none := by
  cases entry with
  | comment | malformed => rfl
  | node row => simp [Entry.text, Row.text, Row.content] at empty

/-- The last line, which need not end with a newline. -/
theorem Parsing.last_dumbList {last : Option Entry} (valid : ∀ entry ∈ last.toList, entry.Valid)
    (clean : ∀ entry ∈ last.toList, 0 ∉ entry.text) (parsing : Parsing) :
    ((if last.elim [] Entry.text = [] then [] else [last.elim [] Entry.text]).foldl
        Parsing.line parsing).dumbList =
      (last.toList.filterMap Entry.node?).foldl (fun table node => table.insert node.key node)
        parsing.dumbList := by
  cases last with
  | none => rfl
  | some entry =>
      by_cases empty : entry.text = []
      · simp [empty, Entry.node?_of_text_nil empty]
      · rw [Option.elim_some, if_neg empty]
        exact Parsing.lines_dumbList valid clean parsing

/-- The table of a whole file. -/
theorem file_dumbList {entries : List Entry} {last : Option Entry}
    (valid : ∀ entry ∈ entries ++ last.toList, entry.Valid)
    (lines : ∀ entry ∈ entries ++ last.toList, newline ∉ entry.text)
    (clean : 0 ∉ file entries last) :
    ((Text.lines newline (file entries last)).foldl Parsing.line {}).dumbList =
      ((entries ++ last.toList).filterMap Entry.node?).foldl
        (fun table node => table.insert node.key node) {} := by
  rw [List.forall_mem_append] at valid lines
  rw [file, List.mem_append, not_or] at clean
  have wholeClean : ∀ entry ∈ entries, 0 ∉ entry.text := by
    intro entry member inside
    refine clean.1 (List.mem_flatMap.mpr ⟨entry.text, List.mem_map_of_mem member, ?_⟩)
    exact List.mem_append_left _ inside
  have lastClean : ∀ entry ∈ last.toList, 0 ∉ entry.text := by
    intro entry member
    rw [Option.mem_toList.mp member] at clean
    exact clean.2
  have lastLine : newline ∉ last.elim [] Entry.text := by
    cases last with
    | none => simp
    | some entry => exact lines.2 entry (by simp)
  rw [file, Text.lines_render (List.forall_mem_map.mpr lines.1) lastLine, List.foldl_append,
    Parsing.last_dumbList valid.2 lastClean, Parsing.lines_dumbList valid.1 wholeClean,
    List.filterMap_append, List.foldl_append]

theorem find_eq_listed {entries : List Entry} {last : Option Entry} {table : NodeTable}
    (valid : ∀ entry ∈ entries ++ last.toList, entry.Valid)
    (lines : ∀ entry ∈ entries ++ last.toList, newline ∉ entry.text)
    (clean : 0 ∉ file entries last)
    (parsed : parseDumbnodesStdStr (some (file entries last)) = some table) (key : AddrType) :
    table.find key = listed (entries ++ last.toList) key := by
  have whole : ((Text.lines newline (file entries last)).foldl Parsing.line {}).dumbList = table :=
    Option.some.inj parsed
  rw [← whole, file_dumbList valid lines clean, NodeTable.find_foldl]
  rfl

/-- **The parser recovers the listed nodes**, the first line for each key, and nothing else. -/
theorem datalet_list_recovered (entries : List Entry) (last : Option Entry)
    (valid : ∀ entry ∈ entries ++ last.toList, entry.Valid)
    (lines : ∀ entry ∈ entries ++ last.toList, newline ∉ entry.text)
    (clean : 0 ∉ file entries last) :
    ∃ table, parseDumbnodesStdStr (some (file entries last)) = some table ∧
      ∀ key, table.find key = listed (entries ++ last.toList) key :=
  ⟨_, rfl, find_eq_listed valid lines clean rfl⟩

/-- Two datalets, one of them listed twice; comments, an empty line and one field too few. -/
theorem datalet_list_recovered_sample : ∃ table,
    parseDumbnodesStdStr (some (file
      [.comment [49], .node ⟨[97], 0, 80, .master, 0, none⟩, .malformed [],
        .malformed [97, 58, 56, 35, 49], .node ⟨[97], 1, 80, .slave, 0, none⟩]
      (some (.node ⟨[98], 2, 81, .slave, 1, some [120]⟩)))) = some table ∧
    table.find [97, 58, 56, 48] = some ⟨[97], 80, 0⟩ ∧
    table.find [98, 58, 56, 49] = some ⟨[98], 81, 1⟩ := by
  obtain ⟨table, parsed, found⟩ := datalet_list_recovered
    [.comment [49], .node ⟨[97], 0, 80, .master, 0, none⟩, .malformed [],
      .malformed [97, 58, 56, 35, 49], .node ⟨[97], 1, 80, .slave, 0, none⟩]
    (some (.node ⟨[98], 2, 81, .slave, 1, some [120]⟩))
    (by decide) (by decide) (by decide)
  exact ⟨table, parsed, (found _).trans (by decide), (found _).trans (by decide)⟩

/-! ## The table of the proxy -/

namespace NodeTable

/-- The rows as `establish_server_conn_each` uses them. -/
def dumbMap (table : NodeTable) : DumbNodeTable where
  rows := table.rows.map fun row => ⟨row.1, if row.2.replicaRole = 0 then .master else .slave⟩
  nodup := by simpa [Function.comp_def] using table.nodup

theorem mem_rows_iff (table : NodeTable) {key : AddrType} {node : DumbNode} :
    (key, node) ∈ table.rows ↔ table.find key = some node := by
  rw [find, Option.map_eq_some_iff]
  constructor
  · intro member
    obtain ⟨row, found⟩ := Option.isSome_iff_exists.mp
      (List.find?_isSome.mpr ⟨(key, node), member, decide_eq_true rfl⟩ :
        (table.rows.find? fun row => row.1 = key).isSome = true)
    have isKey : row.1 = key := by simpa using List.find?_some found
    have same := List.inj_on_of_nodup_map table.nodup (List.mem_of_find?_eq_some found) member
      isKey
    exact ⟨row, found, congrArg Prod.snd same⟩
  · rintro ⟨row, found, rfl⟩
    have isKey : row.1 = key := by simpa using List.find?_some found
    exact isKey ▸ List.mem_of_find?_eq_some found

end NodeTable

/-- What is listed has a role. -/
theorem role_of_listed {entries : List Entry} {key : AddrType} {node : DumbNode}
    (found : listed entries key = some node) : ∃ role, node.replicaRole = roleNumber role := by
  obtain ⟨entry, _, isNode⟩ := List.mem_filterMap.mp (List.mem_of_find?_eq_some found)
  cases entry with
  | comment | malformed => cases isNode
  | node row =>
      cases isNode
      exact ⟨row.role, rfl⟩

/-- The rows of the proxy's table are the keys of the file with the roles listed first. -/
theorem dumbMap_rows {entries : List Entry} {last : Option Entry} {table : NodeTable}
    (valid : ∀ entry ∈ entries ++ last.toList, entry.Valid)
    (lines : ∀ entry ∈ entries ++ last.toList, newline ∉ entry.text)
    (clean : 0 ∉ file entries last)
    (parsed : parseDumbnodesStdStr (some (file entries last)) = some table)
    (row : BespoKV.DumbNode) : row ∈ table.dumbMap.rows ↔
      ∃ node, listed (entries ++ last.toList) row.addr = some node ∧
        node.replicaRole = roleNumber row.role := by
  have found := find_eq_listed valid lines clean parsed
  obtain ⟨key, role⟩ := row
  simp only [NodeTable.dumbMap, List.mem_map, BespoKV.DumbNode.mk.injEq, Prod.exists]
  constructor
  · rintro ⟨_, node, member, rfl, isRole⟩
    rw [NodeTable.mem_rows_iff, found] at member
    obtain ⟨listedRole, number⟩ := role_of_listed member
    refine ⟨node, member, ?_⟩
    rw [number] at isRole ⊢
    cases listedRole <;> cases role <;> first | rfl | cases isRole
  · rintro ⟨node, isListed, number⟩
    refine ⟨key, node, ?_, rfl, ?_⟩
    · rw [NodeTable.mem_rows_iff, found, isListed]
    · rw [number]
      cases role <;> rfl

end BespoKV.NodeList

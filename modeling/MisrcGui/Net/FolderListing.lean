import MisrcGui.Net.RemoteFolders

/-! The text in which `gui_monitor_transport.c` sends a list of folders to the remote
browser. -/
namespace MisrcGui.Net.FolderListing
open Library.NumberText Library.Percent
open MonitorSettings RemoteFolders

/-- `MON_BROWSER_WIRE`. -/
def wireCap : Nat := 40000

def encodeCap : Nat := pathCap * 3 + 1

/-- The macro `APPEND`. -/
def appendPiece (cap : Nat) (body piece : Text) : Option Text :=
  if piece.length ≥ cap - body.length then none else some (body ++ piece)

/-- A text that is encoded and then appended as the value of a key. -/
def appendField (cap : Nat) (name : String) (body text : Text) : Option Text := do
  let encoded ← urlEncode encodeCap [] text
  appendPiece cap body (ascii name ++ equals :: encoded ++ [newline])

def writeItems (cap : Nat) (listing : Listing) (body : Text) : List Nat → Option Text
  | [] => some body
  | i :: rest => do
    let body ← appendField cap "item" body (listing.names.getD i [])
    writeItems cap listing body rest

def numbers (listing : Listing) : Text :=
  ascii "computer=" ++ printFlag listing.computer ++ ascii "\nrecovered=" ++
    printFlag listing.recovered ++ ascii "\nmore=" ++ printFlag listing.hasMore ++
    ascii "\ncount=" ++ decimal listing.count ++ ascii "\n"

def writeBrowse (cap : Nat) (listing : Listing) : Option Text := do
  let body ← appendField cap "path" [] listing.path
  let body ← appendField cap "parent" body listing.parent
  let body ← appendPiece cap body (numbers listing)
  writeItems cap listing body (List.range listing.count)

structure Reading where
  listing : Listing
  hasPath : Bool
  hasParent : Bool
  hasCount : Bool
deriving DecidableEq

def emptyListing : Listing := ⟨[], [], [], 0, 0, false, false, false⟩

def Reading.start : Reading := ⟨emptyListing, false, false, false⟩

def Reading.withPath (reading : Reading) (path : Text) : Reading :=
  { reading with listing := { reading.listing with path := path }, hasPath := true }

def Reading.withParent (reading : Reading) (parent : Text) : Reading :=
  { reading with listing := { reading.listing with parent := parent }, hasParent := true }

def Reading.withCount (reading : Reading) (count : Nat) : Reading :=
  { reading with listing := { reading.listing with count := count }, hasCount := true }

/-- The item takes the place that `page` counts. -/
def Reading.withItem (reading : Reading) (name : Text) : Reading :=
  { reading with listing := { reading.listing with
      names := reading.listing.names ++ [name], page := reading.listing.page + 1 } }

def Reading.withFlags (reading : Reading) (computer recovered hasMore : Bool) : Reading :=
  { reading with listing := { reading.listing with
      computer := computer, recovered := recovered, hasMore := hasMore } }

def readField (reading : Reading) (key value : Text) : Option Reading :=
  let listing := reading.listing
  if key = ascii "path" then (urlDecode pathCap value).map reading.withPath
  else if key = ascii "parent" then (urlDecode pathCap value).map reading.withParent
  else if key = ascii "computer" then
    some (reading.withFlags (atoiInt value ≠ 0) listing.recovered listing.hasMore)
  else if key = ascii "recovered" then
    some (reading.withFlags listing.computer (atoiInt value ≠ 0) listing.hasMore)
  else if key = ascii "more" then
    some (reading.withFlags listing.computer listing.recovered (atoiInt value ≠ 0))
  else if key = ascii "count" then
    let count := (atoiInt value % 2 ^ 32).toNat
    if count > pageSize then none else some (reading.withCount count)
  else if key = ascii "item" then
    if listing.page ≥ pageSize then none else (urlDecode nameCap value).map reading.withItem
  else some reading

def readEntry (reading : Reading) (line : Text) : Option Reading := do
  let (key, value) ← readLine line
  readField reading key value

def readEntries (reading : Reading) : List Text → Option Reading
  | [] => some reading
  | line :: rest =>
    if line = [] ∧ rest = [] then some reading
    else (readEntry reading line).bind fun reading => readEntries reading rest

def parseBrowse (body : Text) : Option Listing := do
  let reading ← readEntries Reading.start (body.splitOn newline)
  if !reading.hasPath || !reading.hasParent || !reading.hasCount ||
      reading.listing.page ≠ reading.listing.count then none
  else some { reading.listing with page := 0 }

/-- A string that ends inside a field of `cap` bytes. -/
def Fits (cap : Nat) (text : Text) : Prop := Clean text ∧ 0 ∉ text ∧ text.length < cap

variable {cap : Nat} {listing : Listing}

theorem urlDecode_fits {text decoded : Text} (read : urlDecode cap text = some decoded) :
    Fits cap decoded := by
  rw [urlDecode] at read
  split at read
  · contradiction
  split at read
  · rename_i fine
    cases Option.some.inj read
    refine ⟨?_, not_mem_of_not_control fine.1, fine.2⟩
    intro c member
    have checked := List.all_eq_true.mp fine.1 c member
    simpa using checked
  · contradiction

structure Stored (listing : Listing) : Prop where
  path : Fits pathCap listing.path
  parent : Fits pathCap listing.parent
  names : ∀ name ∈ listing.names, Fits nameCap name
  page : listing.names.length = listing.page
  few : listing.page ≤ pageSize

theorem fits_nil (room : 0 < cap) : Fits cap [] := ⟨nofun, nofun, room⟩

theorem start_stored : Stored Reading.start.listing where
  path := fits_nil (by decide)
  parent := fits_nil (by decide)
  names := nofun
  page := rfl
  few := Nat.zero_le _

theorem Stored.withItem {reading : Reading} {name : Text} (stored : Stored reading.listing)
    (fits : Fits nameCap name) (room : reading.listing.page < pageSize) :
    Stored (reading.withItem name).listing := by
  refine { stored with names := ?_, page := ?_, few := room }
  · intro other member
    rcases List.mem_append.mp member with earlier | new
    · exact stored.names other earlier
    · rw [List.mem_singleton.mp new]
      exact fits
  · have counted := stored.page
    show (reading.listing.names ++ [name]).length = reading.listing.page + 1
    rw [List.length_append, List.length_singleton, counted]

theorem readField_stored {reading next : Reading} {key value : Text}
    (stored : Stored reading.listing) (read : readField reading key value = some next) :
    Stored next.listing := by
  simp only [readField] at read
  split at read
  · -- path
    obtain ⟨path, decoded, rfl⟩ := Option.map_eq_some_iff.mp read
    exact { stored with path := urlDecode_fits decoded }
  split at read
  · -- parent
    obtain ⟨parent, decoded, rfl⟩ := Option.map_eq_some_iff.mp read
    exact { stored with parent := urlDecode_fits decoded }
  split at read
  · cases Option.some.inj read
    exact { stored with }
  split at read
  · cases Option.some.inj read
    exact { stored with }
  split at read
  · cases Option.some.inj read
    exact { stored with }
  split at read
  · -- count
    split at read
    · cases read
    cases Option.some.inj read
    exact { stored with }
  split at read
  · -- item
    split at read
    · cases read
    rename_i room
    obtain ⟨name, decoded, rfl⟩ := Option.map_eq_some_iff.mp read
    exact stored.withItem (urlDecode_fits decoded) (Nat.not_le.mp room)
  · cases Option.some.inj read
    exact stored

theorem readEntries_stored {reading last : Reading} {lines : List Text}
    (stored : Stored reading.listing) (read : readEntries reading lines = some last) :
    Stored last.listing := by
  induction lines generalizing reading with
  | nil =>
    cases Option.some.inj read
    exact stored
  | cons line rest ih =>
    rw [readEntries] at read
    split at read
    · cases Option.some.inj read
      exact stored
    obtain ⟨next, entry, read⟩ := Option.bind_eq_some_iff.mp read
    obtain ⟨⟨key, value⟩, -, field⟩ := Option.bind_eq_some_iff.mp entry
    exact ih (readField_stored stored field) read

/-- The names of an accepted text are as many as it counts, and every string ends inside its
field. -/
structure WellFormed (listing : Listing) : Prop where
  path : Fits pathCap listing.path
  parent : Fits pathCap listing.parent
  names : ∀ name ∈ listing.names, Fits nameCap name
  count : listing.names.length = listing.count
  few : listing.count ≤ pageSize

theorem parseBrowse_wellFormed {body : Text} (accepted : parseBrowse body = some listing) :
    WellFormed listing := by
  obtain ⟨reading, read, finished⟩ := Option.bind_eq_some_iff.mp accepted
  have stored := readEntries_stored start_stored read
  split at finished
  · contradiction
  rename_i complete
  cases Option.some.inj finished
  have counted : reading.listing.page = reading.listing.count := by
    by_contra differ
    exact complete (by simp [differ])
  exact ⟨stored.path, stored.parent, stored.names, stored.page.trans counted,
    counted ▸ stored.few⟩

def fieldLine (entry : String × Text) : Text := ascii entry.1 ++ equals :: entry.2

def header (listing : Listing) : List (String × Text) :=
  [("path", escape unreserved listing.path), ("parent", escape unreserved listing.parent),
    ("computer", printFlag listing.computer), ("recovered", printFlag listing.recovered),
    ("more", printFlag listing.hasMore), ("count", decimal listing.count)]

def items (names : List Text) : List (String × Text) :=
  names.map fun name => ("item", escape unreserved name)

def lines (listing : Listing) : List Text := (header listing ++ items listing.names).map fieldLine

def ended (lines : List Text) : Text := lines.flatMap fun line => line ++ [newline]

theorem urlEncode_some {encoded text out : Text} (wrote : urlEncode cap encoded text = some out) :
    out = encoded ++ escape unreserved text := by
  induction text generalizing encoded with
  | nil =>
    cases Option.some.inj wrote
    exact (List.append_nil _).symm
  | cons c rest ih =>
    rw [urlEncode] at wrote
    split at wrote
    · contradiction
    rw [ih wrote, escape_cons, List.append_assoc]

theorem appendPiece_some {body piece out : Text} (wrote : appendPiece cap body piece = some out) :
    out = body ++ piece := by
  rw [appendPiece] at wrote
  split at wrote
  · contradiction
  · exact (Option.some.inj wrote).symm

theorem appendField_some {name : String} {body text out : Text}
    (wrote : appendField cap name body text = some out) :
    out = body ++ (fieldLine (name, escape unreserved text) ++ [newline]) := by
  obtain ⟨encoded, encode, wrote⟩ := Option.bind_eq_some_iff.mp wrote
  rw [appendPiece_some wrote, urlEncode_some encode]
  rfl

theorem writeItems_some {body out : Text} {indices : List Nat}
    (wrote : writeItems cap listing body indices = some out) :
    out = body ++ ended ((items (indices.map fun i => listing.names.getD i [])).map fieldLine) := by
  induction indices generalizing body with
  | nil =>
    cases Option.some.inj wrote
    exact (List.append_nil _).symm
  | cons i rest ih =>
    obtain ⟨next, first, wrote⟩ := Option.bind_eq_some_iff.mp wrote
    rw [ih wrote, appendField_some first, List.append_assoc]
    rfl

theorem map_getD_range (names : List Text) :
    (List.range names.length).map (fun i => names.getD i []) = names := by
  apply List.ext_getElem
  · rw [List.length_map, List.length_range]
  · intro i inRange inNames
    rw [List.getElem_map, List.getElem_range, List.getD_eq_getElem?_getD,
      List.getElem?_eq_getElem inNames, Option.getD_some]

theorem numbers_eq (listing : Listing) :
    numbers listing = ended (((header listing).drop 2).map fieldLine) := by
  have computer : ascii "computer=" = ascii "computer" ++ [equals] := by decide
  have recovered : ascii "\nrecovered=" = newline :: (ascii "recovered" ++ [equals]) := by decide
  have more : ascii "\nmore=" = newline :: (ascii "more" ++ [equals]) := by decide
  have count : ascii "\ncount=" = newline :: (ascii "count" ++ [equals]) := by decide
  have last : ascii "\n" = [newline] := by decide
  simp only [numbers, computer, recovered, more, count, last, ended, header, fieldLine,
    List.drop_succ_cons, List.drop_zero, List.map_cons, List.map_nil, List.flatMap_cons,
    List.flatMap_nil, List.append_assoc, List.cons_append, List.nil_append, List.append_nil]

theorem writeBrowse_some {text : Text} (counted : listing.count = listing.names.length)
    (wrote : writeBrowse cap listing = some text) : text = ended (lines listing) := by
  obtain ⟨first, path, wrote⟩ := Option.bind_eq_some_iff.mp wrote
  obtain ⟨second, parent, wrote⟩ := Option.bind_eq_some_iff.mp wrote
  obtain ⟨third, number, wrote⟩ := Option.bind_eq_some_iff.mp wrote
  rw [writeItems_some wrote, appendPiece_some number, appendField_some parent,
    appendField_some path, numbers_eq, counted, map_getD_range]
  simp only [ended, lines, header, List.map_cons, List.map_nil, List.flatMap_cons,
    List.flatMap_nil, List.drop_succ_cons, List.drop_zero, List.append_assoc, List.nil_append,
    List.cons_append]

theorem fieldLine_single {entry : String × Text} (key : newline ∉ ascii entry.1)
    (value : newline ∉ entry.2) : newline ∉ fieldLine entry := by
  intro inside
  rcases List.mem_append.mp inside with early | late
  · exact key early
  · rcases List.mem_cons.mp late with sign | text
    · exact absurd sign (by decide)
    · exact value text

def Plain (entry : String × Text) : Prop :=
  newline ∉ ascii entry.1 ∧ equals ∉ ascii entry.1 ∧ newline ∉ entry.2

theorem decimal_plain (n : Nat) : newline ∉ decimal n := by
  intro inside
  exact absurd (decimal_isDigit n newline inside) (by decide)

theorem printFlag_plain (on : Bool) : newline ∉ printFlag on := by
  cases on <;> decide

theorem plain_entry {name : String} {value : Text}
    (key : newline ∉ ascii name ∧ equals ∉ ascii name) (single : newline ∉ value) :
    Plain (name, value) := ⟨key.1, key.2, single⟩

theorem header_plain (listing : Listing) : ∀ entry ∈ header listing, Plain entry := by
  have escaped (text : Text) : newline ∉ escape unreserved text := (escape_plain text).1
  simp only [header, List.forall_mem_cons]
  refine ⟨?_, ?_, ?_, ?_, ?_, ?_, nofun⟩
  · exact plain_entry (by decide) (escaped _)
  · exact plain_entry (by decide) (escaped _)
  · exact plain_entry (by decide) (printFlag_plain _)
  · exact plain_entry (by decide) (printFlag_plain _)
  · exact plain_entry (by decide) (printFlag_plain _)
  · exact plain_entry (by decide) (decimal_plain _)

theorem items_plain (names : List Text) : ∀ entry ∈ items names, Plain entry := by
  intro entry member
  obtain ⟨name, -, rfl⟩ := List.mem_map.mp member
  exact plain_entry (by decide) (escape_plain name).1

def readFields (reading : Reading) (entries : List (String × Text)) : Option Reading :=
  entries.foldlM (fun reading entry => readField reading (ascii entry.1) entry.2) reading

theorem readEntries_lines {reading : Reading} {entries : List (String × Text)}
    (plain : ∀ entry ∈ entries, Plain entry) :
    readEntries reading (entries.map fieldLine ++ [[]]) = readFields reading entries := by
  induction entries generalizing reading with
  | nil => rfl
  | cons entry rest ih =>
    have key := (plain entry List.mem_cons_self).2.1
    have read : readEntry reading (fieldLine entry) =
        readField reading (ascii entry.1) entry.2 := by
      rw [readEntry, fieldLine, readLine_append key]
      rfl
    have going : ¬(fieldLine entry = [] ∧ rest.map fieldLine ++ [[]] = []) :=
      fun ended => List.append_ne_nil_of_right_ne_nil _ (List.cons_ne_nil _ _) ended.2
    rw [List.map_cons, List.cons_append, readEntries, if_neg going, read, readFields,
      List.foldlM_cons]
    congr 1
    funext next
    exact ih fun other member => plain other (List.mem_cons_of_mem entry member)

theorem readEntries_ended :
    readEntries Reading.start ((ended (lines listing)).splitOn newline) =
      readFields Reading.start (header listing ++ items listing.names) := by
  have plain : ∀ entry ∈ header listing ++ items listing.names, Plain entry := by
    intro entry member
    rcases List.mem_append.mp member with first | later
    · exact header_plain listing entry first
    · exact items_plain _ entry later
  have single : ∀ line ∈ lines listing, newline ∉ line := by
    intro line member
    obtain ⟨entry, listed, rfl⟩ := List.mem_map.mp member
    exact fieldLine_single (plain entry listed).1 (plain entry listed).2.2
  rw [ended, splitOn_lines _ single]
  exact readEntries_lines plain

theorem urlDecode_clean {text : Text} (clean : Clean text) (fits : text.length < cap) :
    urlDecode cap (escape unreserved text) = some text := by
  have checked : text.all fun c => !control c :=
    List.all_eq_true.mpr fun c member => by rw [clean c member]; rfl
  rw [urlDecode_escape, if_pos ⟨checked, fits⟩]

theorem atoiInt_printFlag (on : Bool) : decide (atoiInt (printFlag on) ≠ 0) = on := by
  cases on <;> decide +kernel

theorem readField_item {reading : Reading} {name : Text} (clean : Clean name)
    (fits : name.length < nameCap) (room : reading.listing.page < pageSize) :
    readField reading (ascii "item") (escape unreserved name) = some (reading.withItem name) := by
  simp only [readField]
  rw [if_neg (by decide), if_neg (by decide), if_neg (by decide), if_neg (by decide),
    if_neg (by decide), if_neg (by decide), if_pos trivial, if_neg (Nat.not_le.mpr room),
    urlDecode_clean clean fits]
  rfl

theorem readFields_items {reading : Reading} {names : List Text}
    (clean : ∀ name ∈ names, Clean name) (short : ∀ name ∈ names, name.length < nameCap)
    (room : reading.listing.page + names.length ≤ pageSize) :
    readFields reading (items names) = some { reading with listing := { reading.listing with
      names := reading.listing.names ++ names, page := reading.listing.page + names.length } } := by
  induction names generalizing reading with
  | nil =>
    rw [List.append_nil]
    rfl
  | cons name rest ih =>
    rw [List.length_cons] at room
    have here : readField reading (ascii "item") (escape unreserved name) =
        some (reading.withItem name) :=
      readField_item (clean name List.mem_cons_self) (short name List.mem_cons_self) (by omega)
    have later := ih (fun other member => clean other (List.mem_cons_of_mem name member))
      (fun other member => short other (List.mem_cons_of_mem name member))
      (show (reading.withItem name).listing.page + rest.length ≤ pageSize by
        show reading.listing.page + 1 + rest.length ≤ pageSize
        omega)
    rw [items, List.map_cons, readFields, List.foldlM_cons, here]
    refine later.trans ?_
    simp only [Reading.withItem, List.append_assoc, List.singleton_append, List.length_cons,
      Nat.add_assoc, Nat.add_comm 1]

theorem readField_path (reading : Reading) (value : Text) :
    readField reading (ascii "path") value =
      (urlDecode pathCap value).map reading.withPath := by
  simp only [readField]
  rw [if_pos trivial]

theorem readField_parent (reading : Reading) (value : Text) :
    readField reading (ascii "parent") value =
      (urlDecode pathCap value).map reading.withParent := by
  simp only [readField]
  rw [if_neg (by decide), if_pos trivial]

theorem readField_computer (reading : Reading) (on : Bool) :
    readField reading (ascii "computer") (printFlag on) =
      some (reading.withFlags on reading.listing.recovered reading.listing.hasMore) := by
  simp only [readField, atoiInt_printFlag]
  rw [if_neg (by decide), if_neg (by decide), if_pos trivial]

theorem readField_recovered (reading : Reading) (on : Bool) :
    readField reading (ascii "recovered") (printFlag on) =
      some (reading.withFlags reading.listing.computer on reading.listing.hasMore) := by
  simp only [readField, atoiInt_printFlag]
  rw [if_neg (by decide), if_neg (by decide), if_neg (by decide), if_pos trivial]

theorem readField_more (reading : Reading) (on : Bool) :
    readField reading (ascii "more") (printFlag on) =
      some (reading.withFlags reading.listing.computer reading.listing.recovered on) := by
  simp only [readField, atoiInt_printFlag]
  rw [if_neg (by decide), if_neg (by decide), if_neg (by decide), if_neg (by decide),
    if_pos trivial]

theorem readField_count (reading : Reading) {count : Nat} (few : count ≤ pageSize) :
    readField reading (ascii "count") (decimal count) = some (reading.withCount count) := by
  have number : (atoiInt (decimal count) % 2 ^ 32).toNat = count := by
    unfold pageSize at few
    rw [atoiInt_decimal (by omega)]
    omega
  simp only [readField, number]
  rw [if_neg (by decide), if_neg (by decide), if_neg (by decide), if_neg (by decide),
    if_neg (by decide), if_pos trivial, if_neg (Nat.not_lt.mpr few)]

theorem readFields_header (shown : Shown listing) :
    readFields Reading.start (header listing) =
      some ⟨{ listing with names := [], page := 0 }, true, true, true⟩ := by
  have few := shown.few
  rw [← shown.count] at few
  simp only [readFields, header, List.foldlM_cons, List.foldlM_nil, readField_path,
    urlDecode_clean shown.path.1 shown.path.2, readField_parent,
    urlDecode_clean shown.parent.1 shown.parent.2, Option.map_some, Option.bind_eq_bind,
    Option.bind_some, readField_computer, readField_recovered, readField_more,
    readField_count _ few]
  rfl

theorem parseBrowse_ended (shown : Shown listing) (clean : ∀ name ∈ listing.names, Clean name) :
    parseBrowse (ended (lines listing)) = some { listing with page := 0 } := by
  have room : (0 : Nat) + listing.names.length ≤ pageSize := by
    rw [Nat.zero_add]
    exact shown.few
  have read : readFields Reading.start (header listing ++ items listing.names) =
      some ⟨{ listing with page := listing.names.length }, true, true, true⟩ := by
    rw [readFields, List.foldlM_append]
    refine (congrArg (· >>= fun reading => readFields reading (items listing.names))
      (readFields_header shown)).trans ?_
    refine (readFields_items clean shown.short room).trans ?_
    simp only [List.nil_append, Nat.zero_add]
  rw [parseBrowse, readEntries_ended, read]
  simp only [Option.bind_eq_bind, Option.bind_some]
  rw [if_neg (by simp [shown.count])]

structure Same (listing back : Listing) : Prop where
  path : back.path = listing.path
  parent : back.parent = listing.parent
  hasMore : back.hasMore = listing.hasMore
  computer : back.computer = listing.computer
  recovered : back.recovered = listing.recovered
  count : back.count = listing.count
  names : back.names = listing.names

/-- A list comes back unless a name has a control character: the browser refuses the whole text
of such a list, which the server has sent. -/
theorem listing_survives_iff {fs : FileSystem} {requested : Option Text} {page cap : Nat}
    {listing : Listing} {text : Text} (browsed : browse fs requested page = some listing)
    (wrote : writeBrowse cap listing = some text) :
    ((∃ back, parseBrowse text = some back ∧ Same listing back) ↔
        ∀ name ∈ listing.names, Clean name) ∧
      ∀ body back, parseBrowse body = some back → WellFormed back := by
  have shown := browse_shown browsed
  refine ⟨⟨?_, ?_⟩, fun body back => parseBrowse_wellFormed⟩
  · rintro ⟨back, read, same⟩ name member
    rw [← same.names] at member
    exact ((parseBrowse_wellFormed read).names name member).1
  · intro clean
    rw [writeBrowse_some shown.count wrote, parseBrowse_ended shown clean]
    exact ⟨_, rfl, rfl, rfl, rfl, rfl, rfl, rfl, rfl⟩

def rootWith (name : Text) : FileSystem where
  home := none
  isDir := fun path => path = slash :: name
  entries := fun path => if path = [slash] then some [name] else none
  allocates := true

def oneFolder (name : Text) : Listing := ⟨[slash], [slash], [name], 1, 0, false, false, false⟩

theorem listing_survives_tapes :
    ∃ back, parseBrowse (ended (lines (oneFolder (ascii "Tapes 50%")))) = some back ∧
      Same (oneFolder (ascii "Tapes 50%")) back := by
  have browsed : browse (rootWith (ascii "Tapes 50%")) none 0 =
      some (oneFolder (ascii "Tapes 50%")) := by decide +kernel
  have wrote : writeBrowse wireCap (oneFolder (ascii "Tapes 50%")) =
      some (ended (lines (oneFolder (ascii "Tapes 50%")))) := by decide +kernel
  refine (listing_survives_iff browsed wrote).1.mpr ?_
  intro name member
  have plain : (ascii "Tapes 50%").all (fun c => !control c) = true := by decide
  rw [List.mem_singleton.mp member]
  intro c inside
  simpa using List.all_eq_true.mp plain c inside

/-- A folder whose name has a tab in it. -/
theorem tab_loses_listing :
    browse (rootWith (ascii "a\tb")) none 0 = some (oneFolder (ascii "a\tb")) ∧
      writeBrowse wireCap (oneFolder (ascii "a\tb")) =
        some (ended (lines (oneFolder (ascii "a\tb")))) ∧
      parseBrowse (ended (lines (oneFolder (ascii "a\tb")))) = none := by
  decide +kernel

end MisrcGui.Net.FolderListing

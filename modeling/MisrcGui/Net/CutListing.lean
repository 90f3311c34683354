import MisrcGui.Net.FolderListing
import MisrcGui.Net.Responses

/-! What a remote browser makes of a list of folders whose answer does not arrive whole. -/
namespace MisrcGui.Net.CutListing
open Library.NumberText Library.Percent
open MonitorSettings hiding wireCap
open RemoteFolders FolderListing Responses

theorem urlDecode_cut {text part decoded : Text} {cap : Nat}
    (cut : part <+: escape unreserved text) (read : urlDecode cap part = some decoded) :
    decoded <+: text := by
  obtain ⟨rest, whole⟩ := cut
  rw [urlDecode] at read
  split at read
  · cases read
  rename_i found
  split at read
  · cases read
    have all := unescape_append found rest
    rw [whole, unescape_escape rfl] at all
    obtain ⟨tail, -, same⟩ := Option.map_eq_some_iff.mp all.symm
    exact ⟨tail, same⟩
  · cases read

/-- A front of the entries, where the value of the last may be cut short. -/
inductive Cut : List (String × Text) → List (String × Text) → Prop
  | none {entries} : Cut [] entries
  | within {key value full rest} : value <+: full → Cut [(key, value)] ((key, full) :: rest)
  | past {entry kept rest} : Cut kept rest → Cut (entry :: kept) (entry :: rest)

theorem cut_append {front first rest : Text} {sign : UInt8}
    (cut : front <+: first ++ sign :: rest) :
    front <+: first ∨ ∃ later, front = first ++ sign :: later ∧ later <+: rest := by
  rcases List.prefix_or_prefix_of_prefix cut (List.prefix_append _ _) with inside | ⟨later, rfl⟩
  · exact .inl inside
  · cases later with
    | nil => exact .inl (by simp)
    | cons c later =>
      obtain ⟨rfl, tail⟩ := List.cons_prefix_cons.mp ((List.prefix_append_right_inj _).mp cut)
      exact .inr ⟨later, rfl, tail⟩

theorem readEntry_cut {reading last : Reading} {entry : String × Text} {part : Text}
    (plain : Plain entry) (cut : part <+: fieldLine entry)
    (read : readEntry reading part = some last) :
    ∃ value, value <+: entry.2 ∧ readField reading (ascii entry.1) value = some last := by
  rcases cut_append cut with key | ⟨value, rfl, tail⟩
  · rw [readEntry, readLine, if_neg fun sign => plain.2.1 (key.subset sign)] at read
    cases read
  · rw [readEntry, readLine_append plain.2.1] at read
    exact ⟨value, tail, read⟩

theorem readEntries_cut {entries : List (String × Text)} {reading last : Reading} {front : Text}
    (plain : ∀ entry ∈ entries, Plain entry) (cut : front <+: ended (entries.map fieldLine))
    (read : readEntries reading (front.splitOn newline) = some last) :
    ∃ kept, Cut kept entries ∧ readFields reading kept = some last := by
  induction entries generalizing reading front with
  | nil =>
    rw [List.prefix_nil.mp cut] at read
    exact ⟨[], .none, read⟩
  | cons entry rest ih =>
    obtain ⟨here, plain⟩ := List.forall_mem_cons.mp plain
    have single := fieldLine_single here.1 here.2.2
    have whole : ended ((entry :: rest).map fieldLine) =
        fieldLine entry ++ newline :: ended (rest.map fieldLine) := List.append_assoc ..
    rcases cut_append (whole ▸ cut) with inside | ⟨later, rfl, tail⟩
    · rw [List.splitOn_eq_singleton fun sign => single (inside.subset sign), readEntries] at read
      split at read
      · cases read
        exact ⟨[], .none, rfl⟩
      · obtain ⟨next, first, same⟩ := Option.bind_eq_some_iff.mp read
        cases same
        obtain ⟨value, cut, field⟩ := readEntry_cut here inside first
        exact ⟨[(entry.1, value)], .within cut, by rw [readFields, List.foldlM_cons, field]; rfl⟩
    · rw [List.splitOn_append_cons_self, List.splitOn_eq_singleton single, List.singleton_append,
        readEntries, if_neg fun last => absurd last.1 (by simp [fieldLine]), readEntry, fieldLine,
        readLine_append here.2.1] at read
      obtain ⟨next, first, read⟩ := Option.bind_eq_some_iff.mp read
      obtain ⟨kept, cut, fields⟩ := ih plain tail read
      exact ⟨entry :: kept, .past cut, Option.bind_eq_some_iff.mpr ⟨next, first, fields⟩⟩

def Reading.withItems (reading : Reading) (names : List Text) : Reading :=
  { reading with listing := { reading.listing with
      names := reading.listing.names ++ names, page := reading.listing.page + names.length } }

/-- The names, but for what is cut off the last of them. -/
def Short (shown names : List Text) : Prop :=
  ∃ front part name, shown = front ++ [part] ∧ names = front ++ [name] ∧ part <+: name

theorem readField_item_some {reading next : Reading} {value : Text}
    (read : readField reading (ascii "item") value = some next) :
    ∃ name, urlDecode nameCap value = some name ∧ reading.withItem name = next := by
  simp only [readField] at read
  rw [if_neg (by decide), if_neg (by decide), if_neg (by decide), if_neg (by decide),
    if_neg (by decide), if_neg (by decide), if_pos trivial] at read
  split at read
  · cases read
  · exact Option.map_eq_some_iff.mp read

theorem readFields_cut {names : List Text} {kept : List (String × Text)} {reading last : Reading}
    (cut : Cut kept (items names)) (read : readFields reading kept = some last) :
    ∃ shown, last = Reading.withItems reading shown ∧
      (shown.length = names.length → shown = names ∨ Short shown names) := by
  induction names generalizing kept reading with
  | nil =>
    cases cut
    cases read
    exact ⟨[], by simp [Reading.withItems], fun _ => .inl rfl⟩
  | cons name names ih =>
    cases cut with
    | none =>
      cases read
      exact ⟨[], by simp [Reading.withItems], nofun⟩
    | within cut =>
      obtain ⟨next, first, read⟩ := Option.bind_eq_some_iff.mp read
      cases read
      obtain ⟨part, decoded, rfl⟩ := readField_item_some first
      refine ⟨[part], rfl, fun same => .inr ⟨[], part, name, rfl, ?_, urlDecode_cut cut decoded⟩⟩
      rw [List.length_eq_zero_iff.mp (Nat.succ.inj same).symm]
      rfl
    | past cut =>
      obtain ⟨next, first, read⟩ := Option.bind_eq_some_iff.mp read
      obtain ⟨same, decoded, rfl⟩ := readField_item_some first
      rw [urlDecode_escape] at decoded
      split at decoded
      · cases decoded
        obtain ⟨shown, rfl, short⟩ := ih cut read
        refine ⟨name :: shown, ?_, fun same => ?_⟩
        · simp [Reading.withItems, Reading.withItem, Nat.add_assoc, Nat.add_comm 1]
        · rcases short (Nat.succ.inj same) with rfl | ⟨front, part, full, rfl, rfl, inside⟩
          · exact .inl rfl
          · exact .inr ⟨name :: front, part, full, rfl, rfl, inside⟩
      · cases decoded

theorem readField_hasCount {reading next : Reading} {key value : Text} (other : key ≠ ascii "count")
    (read : readField reading key value = some next) : next.hasCount = reading.hasCount := by
  simp only [readField, if_neg other] at read
  repeat' split at read
  all_goals simp only [Option.map_eq_some_iff, Option.some.injEq, reduceCtorEq] at read
  all_goals
    obtain ⟨_, -, rfl⟩ := read
    rfl

/-- Where a count has been read, everything in front of it has arrived whole. -/
theorem Cut.counted {kept early later : List (String × Text)} {mark : String × Text}
    {reading last : Reading} (cut : Cut kept (early ++ mark :: later))
    (keys : ∀ entry ∈ early, ascii entry.1 ≠ ascii "count")
    (read : readFields reading kept = some last) (before : reading.hasCount = false)
    (behind : last.hasCount = true) : (∃ value, kept = early ++ [(mark.1, value)]) ∨
      ∃ rest, Cut rest later ∧ kept = early ++ mark :: rest := by
  induction early generalizing kept reading with
  | nil =>
    cases cut with
    | none =>
      cases read
      exact absurd (before.symm.trans behind) nofun
    | within => exact .inl ⟨_, rfl⟩
    | past cut => exact .inr ⟨_, cut, rfl⟩
  | cons first early ih =>
    obtain ⟨other, keys⟩ := List.forall_mem_cons.mp keys
    cases cut with
    | none =>
      cases read
      exact absurd (before.symm.trans behind) nofun
    | within =>
      obtain ⟨next, field, same⟩ := Option.bind_eq_some_iff.mp read
      cases same
      exact absurd ((before.symm.trans (readField_hasCount other field).symm).trans behind) nofun
    | past cut =>
      obtain ⟨next, field, read⟩ := Option.bind_eq_some_iff.mp read
      rcases ih cut keys read ((readField_hasCount other field).trans before) with
        ⟨value, rfl⟩ | ⟨rest, more, rfl⟩
      · exact .inl ⟨value, rfl⟩
      · exact .inr ⟨rest, more, rfl⟩

theorem readField_count_some {reading next : Reading} {value : Text}
    (read : readField reading (ascii "count") value = some next) :
    ∃ count, reading.withCount count = next := by
  simp only [readField] at read
  rw [if_neg (by decide), if_neg (by decide), if_neg (by decide), if_neg (by decide),
    if_neg (by decide), if_pos trivial] at read
  split at read
  · cases read
  · exact ⟨_, Option.some.inj read⟩

/-- The folder, with its names but for a cut in the last, or as if it were empty. -/
def Cutoff (listing back : Listing) : Prop :=
  ∃ names, back = { listing with names := names, count := names.length, page := 0 } ∧
    (names = listing.names ∨ Short names listing.names ∨ names = [])

theorem parseBrowse_cut {listing back : Listing} (shown : Shown listing) {front : Text}
    (cut : front <+: ended (lines listing)) (accepted : parseBrowse front = some back) :
    Cutoff listing back := by
  obtain ⟨last, read, accepted⟩ := Option.bind_eq_some_iff.mp accepted
  split at accepted
  · cases accepted
  rename_i complete
  simp only [Bool.or_eq_true, Bool.not_eq_true', not_or, Bool.not_eq_false, decide_eq_true_eq,
    Decidable.not_not] at complete
  cases accepted
  obtain ⟨kept, cut, fields⟩ := readEntries_cut (fun entry member =>
    (List.mem_append.mp member).elim (header_plain listing entry) (items_plain _ entry)) cut read
  have parts : Cut kept ((header listing).take 5 ++
      ("count", decimal listing.count) :: items listing.names) := cut
  have keys : ∀ other ∈ (header listing).take 5, ascii other.1 ≠ ascii "count" := by
    simp only [header, List.take, List.forall_mem_cons]
    exact ⟨by decide, by decide, by decide, by decide, by decide, by simp⟩
  rcases parts.counted keys fields rfl complete.1.2 with ⟨value, rfl⟩ | ⟨behind, rest, rfl⟩
  · simp only [readFields, header, List.take, List.cons_append, List.nil_append, List.foldlM_cons,
      List.foldlM_nil, readField_path, urlDecode_clean shown.path.1 shown.path.2, readField_parent,
      urlDecode_clean shown.parent.1 shown.parent.2, Option.map_some, Option.bind_eq_bind,
      Option.bind_some, readField_computer, readField_recovered, readField_more] at fields
    obtain ⟨next, number, same⟩ := Option.bind_eq_some_iff.mp fields
    cases same
    obtain ⟨count, rfl⟩ := readField_count_some number
    obtain rfl : 0 = count := complete.2
    exact ⟨[], rfl, .inr (.inr rfl)⟩
  · change readFields _ (header listing ++ behind) = _ at fields
    rw [readFields, List.foldlM_append] at fields
    obtain ⟨next, head, fields⟩ := Option.bind_eq_some_iff.mp fields
    cases (readFields_header shown).symm.trans head
    obtain ⟨names, rfl, short⟩ := readFields_cut rest fields
    have counted : names.length = listing.count := (Nat.zero_add _).symm.trans complete.2
    refine ⟨names, ?_, (short (counted.trans shown.count)).imp_right .inl⟩
    simp [Reading.withItems, counted]

theorem monGet_cut {answer : Answer} {arrivals : List Arrival} {body : Text} {cap : Nat}
    (cut : arrived arrivals <+: answer.bytes) (got : monGet cap arrivals = some body) :
    body <+: answer.body := by
  rw [monGet] at got
  split at got
  · cases got
  have inside := ((List.take_prefix (cap - 1) _).trans (arrivedAtOnce_initial arrivals)).trans cut
  rw [readAll_eq arrivals (by rw [List.length_nil]; omega), List.nil_append] at got
  generalize (arrivedAtOnce arrivals).take (cap - 1) = kept at got inside
  dsimp only at got
  split at got
  · obtain ⟨⟨front, rest⟩, found, rfl⟩ := Option.map_eq_some_iff.mp got
    by_cases long : answer.head.length ≤ kept.length
    · obtain ⟨_, -, place⟩ := found_head answer (kept.drop answer.head.length)
      rw [← split_head inside long, found] at place
      cases place
      rw [drop_take_body inside long]
      exact (List.takeWhile_prefix _).trans (List.take_prefix _ _)
    · rw [not_found inside (Nat.lt_of_not_le long)] at found
      cases found
  · cases got

/-- However the answer to a browser is chopped, interrupted and cut off, a list that it accepts is
of the folder, and wrong in no more than the end of its last name, unless it has no names. -/
theorem browse_cut {fs : FileSystem} {requested : Option Text} {page : Nat}
    {listing back : Listing} {text : Text} {arrivals : List Arrival}
    (browsed : browse fs requested page = some listing)
    (wrote : writeBrowse wireCap listing = some text)
    (cut : arrived arrivals <+: (monAnswer 200 .textPlain text).bytes)
    (accepted : (monGet wireCap arrivals).bind parseBrowse = some back) :
    Cutoff listing back := by
  have shown := browse_shown browsed
  obtain ⟨body, got, accepted⟩ := Option.bind_eq_some_iff.mp accepted
  have front : body <+: text := monGet_cut cut got
  exact parseBrowse_cut shown (writeBrowse_some shown.count wrote ▸ front) accepted

def tapes : Listing := oneFolder (ascii "Tapes 50%")

/-- The answer without its last four bytes. -/
def broken : List Arrival :=
  [.bytes ((monAnswer 200 .textPlain (ended (lines tapes))).bytes.take 157)]

theorem browse_cut_tapes :
    (monGet wireCap broken).bind parseBrowse = some (oneFolder (ascii "Tapes 50")) ∧
      Cutoff tapes (oneFolder (ascii "Tapes 50")) := by
  have browsed : browse (rootWith (ascii "Tapes 50%")) none 0 = some tapes := by decide +kernel
  have wrote : writeBrowse wireCap tapes = some (ended (lines tapes)) := by
    decide +kernel
  have cut : arrived broken <+: (monAnswer 200 .textPlain (ended (lines tapes))).bytes := by
    decide +kernel
  have accepted : (monGet wireCap broken).bind parseBrowse =
      some (oneFolder (ascii "Tapes 50")) := by decide +kernel
  exact ⟨accepted, browse_cut browsed wrote cut accepted⟩

end MisrcGui.Net.CutListing

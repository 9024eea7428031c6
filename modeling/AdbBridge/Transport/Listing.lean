import AdbBridge.Transport.HostRequest
import AdbBridge.Transport.Qualifiers

/-!
# The list of devices as a text

`list_transports` prints a line for each transport, sorted by type and serial. The strings that a
device says of itself are sanitized, so that they have no newline, and the id comes last, so that it
is found by scanning backwards from the end of the line. The serial is not sanitized, though it
comes from the device as well. In the long form it is printed as a C string.

So the text has one line for each transport exactly if no serial has a newline
(`AdbBridge.listParseable_iff`); in the long form, what is behind a NUL does not matter
(`AdbBridge.longParseable_iff`).
-/

namespace AdbBridge

open List

/-! ### The text -/

/-- `sanitize`. -/
def sanitize (str : Bytes) (alphanumeric : Bool) : Bytes :=
  if alphanumeric then sanitizeAlnum str else str.map fun c => if c = 10 then 95 else c

/-- A transport with its id. -/
abbrev ListedTransport := TransportId × Atransport

/-- The string that `c_str()` stands for. -/
def cStr (s : Bytes) : Bytes := s.takeWhile (· != 0)

/-- `append_transport_info`. -/
def appendTransportInfo (result key value : Bytes) (alphanumeric : Bool) : Bytes :=
  if value = [] then result else result ++ [32] ++ key ++ sanitize value alphanumeric

/-- `append_transport`. -/
def appendTransport (cfg : Config) (result : Bytes) (x : ListedTransport) (longListing : Bool) :
    Bytes :=
  let serial := if x.2.serial = [] then ascii "(no serial number)" else x.2.serial
  let state := connectionStateName cfg x.2.connectionState
  let line :=
    if !longListing then result ++ serial ++ [9] ++ state
    else
      -- The format is `"%-22s %s"`.
      let result := result ++ (cStr serial ++ List.replicate (22 - (cStr serial).length) 32) ++
        [32] ++ cStr state
      let result := appendTransportInfo result [] x.2.devpath false
      let result := appendTransportInfo result (ascii "product:") x.2.product false
      let result := appendTransportInfo result (ascii "model:") x.2.model true
      let result := appendTransportInfo result (ascii "device:") x.2.device false
      result ++ ascii " transport_id:" ++ decimal x.1
  line ++ [10]

/-- `transportListToText`. -/
def transportListToText (cfg : Config) (sorted : List ListedTransport) (longListing : Bool) :
    Bytes :=
  sorted.foldl (fun result x => appendTransport cfg result x longListing) []

/-- The place of a type in the enumeration. -/
def TransportType.rank : TransportType → ℕ
  | .kTransportUsb => 0
  | .kTransportLocal => 1
  | .kTransportAny => 2
  | .kTransportHost => 3

/-- The comparison that the list is sorted with. -/
def SortsBefore (x y : ListedTransport) : Prop :=
  if x.2.type ≠ y.2.type then x.2.type.rank < y.2.type.rank
  else x.2.serial.map UInt8.toNat < y.2.serial.map UInt8.toNat

instance decidableSortsBefore (x y : ListedTransport) : Decidable (SortsBefore x y) :=
  inferInstanceAs (Decidable (if x.2.type ≠ y.2.type then x.2.type.rank < y.2.type.rank
    else x.2.serial.map UInt8.toNat < y.2.serial.map UInt8.toNat))

/-- `std::list::sort`, which keeps the order of what compares equal. -/
def sortTransports (ts : List ListedTransport) : List ListedTransport :=
  ts.insertionSort fun x y => ¬ SortsBefore y x

/-- `list_transports` for the two texts. -/
def listTransportsText (cfg : Config) (ts : List ListedTransport) (longListing : Bool) : Bytes :=
  transportListToText cfg (sortTransports ts) longListing

/-! ### What a reader expects -/

/-- The text has these lines, each with a newline at its end. -/
def HasLines (text : Bytes) (lines : List Bytes) : Prop := splitAt 10 text = lines ++ [[]]

/-- **The long form**: a line for each transport, sorted, with the id at its end. -/
def LongParseable (cfg : Config) (ts : List ListedTransport) : Prop :=
  ∃ lines order, HasLines (listTransportsText cfg ts true) lines ∧ order.Perm ts ∧
    order.Pairwise (fun x y => ¬ SortsBefore y x) ∧
    List.Forall₂ (fun line x => ascii " transport_id:" ++ decimal x.1 <:+ line) lines order

/-- **The short form**: a line for each transport. -/
def ShortParseable (cfg : Config) (ts : List ListedTransport) : Prop :=
  ∃ lines, HasLines (listTransportsText cfg ts false) lines ∧ lines.length = ts.length

/-! ### The order -/

/-- What transports are sorted by. -/
def sortKey (x : ListedTransport) : ℕ ×ₗ List ℕ :=
  toLex (x.2.type.rank, x.2.serial.map UInt8.toNat)

theorem rank_injective {a b : TransportType} (h : a.rank = b.rank) : a = b := by
  cases a <;> cases b <;> first | rfl | cases h

theorem not_sortsBefore_iff (x y : ListedTransport) :
    ¬ SortsBefore y x ↔ sortKey x ≤ sortKey y := by
  rw [sortKey, sortKey, Prod.Lex.toLex_le_toLex, SortsBefore]
  split_ifs with htype
  · have hrank : x.2.type.rank ≠ y.2.type.rank := fun h => htype (rank_injective h).symm
    simp only
    omega
  · rw [not_not] at htype
    simp [htype]

/-- The list is sorted, and has the same transports. -/
theorem pairwise_sortTransports (ts : List ListedTransport) :
    (sortTransports ts).Pairwise fun x y => ¬ SortsBefore y x := by
  have htotal : Std.Total fun x y : ListedTransport => ¬ SortsBefore y x :=
    ⟨fun x y => by rw [not_sortsBefore_iff, not_sortsBefore_iff]; exact le_total _ _⟩
  have htrans : IsTrans ListedTransport fun x y => ¬ SortsBefore y x :=
    ⟨fun x y z => by simp only [not_sortsBefore_iff]; exact le_trans⟩
  exact pairwise_insertionSort _ ts

theorem perm_sortTransports (ts : List ListedTransport) : (sortTransports ts).Perm ts :=
  perm_insertionSort _ ts

/-! ### Lines -/

/-- The line of a transport, without the newline. -/
def transportLine (cfg : Config) (longListing : Bool) (x : ListedTransport) : Bytes :=
  (appendTransport cfg [] x longListing).dropLast

theorem appendTransportInfo_append (front result key value : Bytes) (alphanumeric : Bool) :
    appendTransportInfo (front ++ result) key value alphanumeric =
      front ++ appendTransportInfo result key value alphanumeric := by
  unfold appendTransportInfo
  split
  · rfl
  · simp only [append_assoc]

/-- A transport is appended as one line. -/
theorem appendTransport_eq (cfg : Config) (result : Bytes) (x : ListedTransport)
    (longListing : Bool) :
    appendTransport cfg result x longListing =
      result ++ (transportLine cfg longListing x ++ [10]) := by
  have hfront : appendTransport cfg result x longListing =
      result ++ appendTransport cfg [] x longListing := by
    unfold appendTransport
    cases longListing with
    | false => simp [append_assoc]
    | true =>
      simp only [Bool.not_true, Bool.false_eq_true, if_false, append_assoc, nil_append,
        appendTransportInfo_append]
  have hline : transportLine cfg longListing x ++ [10] = appendTransport cfg [] x longListing := by
    rw [transportLine, appendTransport, dropLast_concat]
  rw [hfront, hline]

/-- The text is made of the lines. -/
theorem transportListToText_eq (cfg : Config) (ts : List ListedTransport) (longListing : Bool) :
    transportListToText cfg ts longListing =
      (ts.map (transportLine cfg longListing)).flatMap (· ++ [10]) := by
  have hfold : ∀ result, ts.foldl (fun result x =>
    appendTransport cfg result x longListing) result =
      result ++ (ts.map (transportLine cfg longListing)).flatMap (· ++ [10]) := by
    induction ts with
    | nil => simp
    | cons x ts ih =>
      intro result
      rw [foldl_cons, ih, appendTransport_eq, map_cons, flatMap_cons,
        append_assoc]
  exact hfold []

/-- A line that has a newline is several. -/
theorem splitAt_flatMap (lines : List Bytes) :
    splitAt 10 (lines.flatMap (· ++ [10])) = lines.flatMap (splitAt 10) ++ [[]] := by
  induction lines with
  | nil => rfl
  | cons line lines ih =>
    rw [flatMap_cons, append_assoc, singleton_append, splitAt,
      splitOn_append_cons_self, ← splitAt, ← splitAt, ih, flatMap_cons, append_assoc]

theorem one_le_length_splitAt (s : Bytes) : 1 ≤ (splitAt 10 s).length :=
  length_pos_iff.mpr (splitOn_ne_nil 10 s)

variable {s : Bytes} {lines : List Bytes}

theorem length_splitAt_eq_one : (splitAt 10 s).length = 1 ↔ 10 ∉ s := by
  constructor
  · intro hlen hmem
    obtain ⟨front, rest, rfl⟩ := append_of_mem hmem
    rw [splitAt, splitOn_append_cons_self, length_append] at hlen
    have hfront := one_le_length_splitAt front
    have hrest := one_le_length_splitAt rest
    rw [splitAt] at hfront hrest
    omega
  · intro hnot
    rw [splitAt, splitOn_eq_singleton hnot]
    rfl

/-- **There are as many lines as there should be exactly if none of them has a newline.** -/
theorem length_flatMap_splitAt :
    (lines.flatMap (splitAt 10)).length = lines.length ↔ ∀ line ∈ lines, 10 ∉ line := by
  have hle : ∀ lines : List Bytes, lines.length ≤ (lines.flatMap (splitAt 10)).length := by
    intro lines
    induction lines with
    | nil => exact le_rfl
    | cons line lines ih =>
      have hone := one_le_length_splitAt line
      rw [flatMap_cons, length_append, length_cons]
      omega
  induction lines with
  | nil => simp
  | cons line lines ih =>
    have hone := one_le_length_splitAt line
    have hrest := hle lines
    rw [forall_mem_cons, flatMap_cons, length_append, length_cons]
    refine Iff.trans ?_ (and_congr length_splitAt_eq_one ih)
    omega

/-! ### Newlines in a line -/

theorem newline_notMem_sanitize (s : Bytes) (alphanumeric : Bool) :
    10 ∉ sanitize s alphanumeric := by
  unfold sanitize sanitizeAlnum
  split
  · intro hmem
    obtain ⟨c, -, hc⟩ := mem_map.mp hmem
    by_cases halnum : isAlnum c = true
    · rw [if_pos halnum] at hc
      subst hc
      exact absurd halnum (by decide)
    · rw [if_neg halnum] at hc
      exact absurd hc (by decide)
  · intro hmem
    obtain ⟨c, -, hc⟩ := mem_map.mp hmem
    by_cases hnewline : c = 10
    · rw [if_pos hnewline] at hc
      exact absurd hc (by decide)
    · rw [if_neg hnewline] at hc
      exact hnewline hc

theorem newline_mem_appendTransportInfo {result key value : Bytes} {alphanumeric : Bool}
    (hkey : 10 ∉ key) : 10 ∈ appendTransportInfo result key value alphanumeric ↔ 10 ∈ result := by
  unfold appendTransportInfo
  split
  · rfl
  · have hsanitize := newline_notMem_sanitize value alphanumeric
    simp [hkey, hsanitize]

/-- The short help text is one line. -/
theorem newline_notMem_shortHelpText (cfg : Config) : 10 ∉ cfg.usbNoPermissionsShortHelpText := by
  have hproblem : 10 ∉ cfg.udevProblem.text := by
    cases cfg.udevProblem with
    | unknown | missingRules => decide
    | notInGroup user =>
      have huser : 10 ∉ user.elim (ascii "?") (·.name) := by
        cases user with
        | none => decide
        | some user => exact user.oneLine
      rw [UdevProblem.text, mem_append, mem_append, not_or, not_or]
      exact ⟨⟨by decide, huser⟩, by decide⟩
  have hparens : 10 ∉ (if cfg.udevProblem.text = [] then []
      else ascii " (" ++ cfg.udevProblem.text ++ ascii ")") := by
    split_ifs
    · exact not_mem_nil
    · rw [mem_append, mem_append, not_or, not_or]
      exact ⟨⟨by decide, hproblem⟩, by decide⟩
  simp only [Config.usbNoPermissionsShortHelpText, mem_append, hparens, or_false]
  decide

/-- The names of the states have no newline. -/
theorem newline_notMem_connectionStateName (cfg : Config) (state : ConnectionState) :
    10 ∉ connectionStateName cfg state := by
  cases state with
  | kCsNoPerm => exact newline_notMem_shortHelpText cfg
  | _ =>
    rw [connectionStateName]
    decide

/-- The serial as it is printed. -/
def printedSerial (longListing : Bool) (x : ListedTransport) : Bytes :=
  if longListing then cStr x.2.serial else x.2.serial

theorem mem_of_mem_cStr {c : UInt8} (h : c ∈ cStr s) : c ∈ s :=
  (List.takeWhile_prefix _).subset h

/-- **A line has a newline exactly if the serial that is printed has one.** -/
theorem newline_mem_transportLine (cfg : Config) (longListing : Bool) (x : ListedTransport) :
    10 ∈ transportLine cfg longListing x ↔ 10 ∈ printedSerial longListing x := by
  have hstate := newline_notMem_connectionStateName cfg x.2.connectionState
  have hstate' : 10 ∉ cStr (connectionStateName cfg x.2.connectionState) := fun hmem =>
    hstate (mem_of_mem_cStr hmem)
  have hdecimal : 10 ∉ decimal x.1 := notMem_decimal (by decide) x.1
  -- What is printed in place of an empty serial has no newline.
  have hserial : ∀ f : Bytes → Bytes, (10 ∉ f (ascii "(no serial number)")) → (10 ∉ f []) →
      (10 ∈ f (if x.2.serial = [] then ascii "(no serial number)" else x.2.serial) ↔
        10 ∈ f x.2.serial) := by
    intro f hnone hnil
    split_ifs with hempty
    · rw [hempty]
      exact iff_of_false hnone hnil
    · rfl
  rw [transportLine, appendTransport, dropLast_concat]
  cases longListing with
  | false =>
    have hplain := hserial id (by decide) (by decide)
    simp only [id] at hplain
    simp [printedSerial, hplain, hstate]
  | true =>
    have hcut := hserial cStr (by decide) (by decide)
    have hid : 10 ∉ ascii " transport_id:" := by decide
    simp only [Bool.not_true, Bool.false_eq_true, if_false, mem_append, hid, hdecimal, or_false]
    rw [newline_mem_appendTransportInfo (by decide), newline_mem_appendTransportInfo (by decide),
      newline_mem_appendTransportInfo (by decide), newline_mem_appendTransportInfo (by decide)]
    simp [printedSerial, hcut, hstate']

/-! ### One line for each transport -/

variable {cfg : Config} {ts : List ListedTransport}

/-- The number of lines is right exactly if no serial that is printed has a newline. -/
theorem hasLines_iff (longListing : Bool) :
    (∃ lines, HasLines (listTransportsText cfg ts longListing) lines ∧ lines.length = ts.length) ↔
      ∀ x ∈ ts, 10 ∉ printedSerial longListing x := by
  have htext : splitAt 10 (listTransportsText cfg ts longListing) =
      ((sortTransports ts).map (transportLine cfg longListing)).flatMap (splitAt 10) ++ [[]] := by
    rw [listTransportsText, transportListToText_eq, splitAt_flatMap]
  have hlength : ((sortTransports ts).map (transportLine cfg longListing)).length = ts.length := by
    rw [length_map, (perm_sortTransports ts).length_eq]
  have hnone : (∀ line ∈ (sortTransports ts).map (transportLine cfg longListing), 10 ∉ line) ↔
      ∀ x ∈ ts, 10 ∉ printedSerial longListing x := by
    rw [forall_mem_map]
    simp only [newline_mem_transportLine, (perm_sortTransports ts).mem_iff]
  rw [← hnone, ← length_flatMap_splitAt, hlength]
  constructor
  · rintro ⟨lines, hlines, hlen⟩
    rw [HasLines, htext, append_left_inj] at hlines
    rw [hlines, hlen]
  · intro hlen
    exact ⟨_, htext, hlen⟩

/-- The id is at the end of the line. -/
theorem transportId_suffix (cfg : Config) (x : ListedTransport) :
    ascii " transport_id:" ++ decimal x.1 <:+ transportLine cfg true x := by
  rw [transportLine, appendTransport, dropLast_concat]
  simp only [Bool.not_true, Bool.false_eq_true, if_false]
  rw [append_assoc]
  exact suffix_append _ _

theorem flatMap_splitAt_of_notMem (h : ∀ line ∈ lines, 10 ∉ line) :
    lines.flatMap (splitAt 10) = lines := by
  induction lines with
  | nil => rfl
  | cons line lines ih =>
    obtain ⟨hline, hlines⟩ := forall_mem_cons.mp h
    rw [flatMap_cons, splitAt, splitOn_eq_singleton hline, ih hlines,
      singleton_append]

/-- **The long form can be read exactly if no serial has a newline before its first NUL.** -/
theorem longParseable_iff : LongParseable cfg ts ↔ ∀ x ∈ ts, 10 ∉ cStr x.2.serial := by
  constructor
  · rintro ⟨lines, order, hlines, hperm, -, hids⟩
    exact (hasLines_iff true).mp ⟨lines, hlines, hids.length_eq.trans hperm.length_eq⟩
  · intro hserials
    have hnewline : ∀ line ∈ (sortTransports ts).map (transportLine cfg true), 10 ∉ line := by
      intro line hline
      obtain ⟨x, hx, rfl⟩ := mem_map.mp hline
      rw [newline_mem_transportLine cfg]
      exact hserials x ((perm_sortTransports ts).mem_iff.mp hx)
    refine ⟨(sortTransports ts).map (transportLine cfg true), sortTransports ts, ?_,
      perm_sortTransports ts, pairwise_sortTransports ts, ?_⟩
    · rw [HasLines, listTransportsText, transportListToText_eq, splitAt_flatMap,
        flatMap_splitAt_of_notMem hnewline]
    · rw [forall₂_map_left_iff, forall₂_same]
      exact fun x _ => transportId_suffix cfg x

/-- The short form can be read exactly if no serial has a newline. -/
theorem shortParseable_iff : ShortParseable cfg ts ↔ ∀ x ∈ ts, 10 ∉ x.2.serial :=
  hasLines_iff false

/-- **Both forms of the list can be read exactly if no serial has a newline.** -/
theorem listParseable_iff :
    LongParseable cfg ts ∧ ShortParseable cfg ts ↔ ∀ x ∈ ts, 10 ∉ x.2.serial := by
  rw [longParseable_iff, shortParseable_iff]
  refine and_iff_right_of_imp fun hserials x hx hmem => ?_
  exact hserials x hx (mem_of_mem_cStr hmem)

/-- A device that announces a newline in its model, where it is replaced. -/
theorem listParseable_newlineModel :
    LongParseable {} [(1, { serial := ascii "a", model := [98, 10, 99] })] ∧
      ShortParseable {} [(1, { serial := ascii "a", model := [98, 10, 99] })] :=
  listParseable_iff.mpr (by decide)

/-- **A newline in the serial makes two lines of one**, in both forms. -/
theorem not_listParseable_newlineSerial :
    ¬ LongParseable {} [(1, { serial := [97, 10, 98] })] ∧
      ¬ ShortParseable {} [(1, { serial := [97, 10, 98] })] := by
  rw [longParseable_iff, shortParseable_iff]
  decide

end AdbBridge

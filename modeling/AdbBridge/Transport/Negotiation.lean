import AdbBridge.Transport.Banner

/-!
# Identity strings and the features of a device

The banner of a device is plain text: the product, the model and the device come before the
features, and nothing is escaped. This module says what a host makes of the features whatever
the three identity strings are.

The properties are read in order, so that the last well-formed `features=` is what counts
(`AdbBridge.features_foldl_parseProp`), and the device's own is the last one of its banner.
A `;` in an identity string therefore does no harm, even if a `features=` of its own follows
it, and neither does a `=`, which only loses that one property. A `:` does: the host reads the
third piece between colons, so that the banner ends at the first colon of the identity
strings. The device's features are not in it any more
(`AdbBridge.negotiated_iff`).
-/

namespace AdbBridge

open List

/-! ### The device's side -/

/-- What is read through a pointer to the bytes. -/
def CString.read (raw : Bytes) : CString :=
  ⟨cString raw [], fun h => by simpa using mem_takeWhile_imp h⟩

/-- `GetProperty` of a property with these bytes. The callback assigns a `const char*`; a
property that is not there and an empty one are the same to a caller whose default is
empty. -/
def getProperty (raw : Bytes) : CString := .read raw

def kFeatureShell2 : Bytes := ascii "shell_v2"

/-- `supported_features` of a device. -/
def supportedFeatures : List CString :=
  [.read kFeatureShell2, .read (ascii "cmd"), .read (ascii "stat_v2"), .read (ascii "ls_v2"),
    .read (ascii "fixed_push_mkdir"), .read (ascii "apex"), .read (ascii "abb"),
    .read (ascii "fixed_push_symlink_timestamp"), .read (ascii "abb_exec"),
    .read (ascii "remount_shell"), .read (ascii "track_app"), .read (ascii "sendrecv_v2"),
    .read (ascii "sendrecv_v2_brotli"), .read (ascii "sendrecv_v2_lz4"),
    .read (ascii "sendrecv_v2_zstd"), .read (ascii "sendrecv_v2_dry_run_send"),
    .read (ascii "openscreen_mdns"), .read (ascii "devicetracker_proto_format"),
    .read (ascii "devraw"), .read (ascii "app_info"), .read (ascii "server_status"),
    .read kFeatureDelayedAck]

/-- The names of the features. -/
def featureNames : List Bytes := supportedFeatures.map (·.bytes)

/-- The features as they stand in the banner. -/
def featureText : Bytes := featureSetToString featureNames

theorem not_mem_featureText : ∀ d ∈ [0, 58, 59, 61], d ∉ featureText := by decide +kernel

theorem stringToFeatureSet_featureText : stringToFeatureSet featureText = featureNames :=
  stringToFeatureSet_featureSetToString (by decide +kernel)

/-- No other text gives the same features. -/
theorem stringToFeatureSet_eq_iff {v : Bytes} :
    stringToFeatureSet v = featureNames ↔ v = featureText := by
  refine ⟨fun h => ?_, fun h => h ▸ stringToFeatureSet_featureText⟩
  rw [stringToFeatureSet] at h
  split_ifs at h with hempty
  · exact absurd h (by decide)
  · rw [featureText, ← h]
    exact (intercalate_splitOn 44).symm

/-! ### The host's side -/

/-- What a host has to hold of a device for the two to agree: the features, and of these, that
the device speaks the shell protocol, and that acks are delayed just when the host has them
enabled – a device always has. -/
structure Negotiated (cfg : Config) (x : Atransport) : Prop where
  features : x.features = featureNames
  delayedAck : x.delayedAck = cfg.delayedAckEnabled
  shell : kFeatureShell2 ∈ x.features

/-- The value of a property, if it is one that sets the features. -/
def featuresValue (prop : Bytes) : Option Bytes :=
  match splitAt 61 prop with
  | [key, value] => if key == ascii "features" then some value else none
  | _ => none

/-- The features that a text of properties comes down to. -/
def announced (props : Bytes) : Option Bytes :=
    ((splitAt 59 props).filterMap featuresValue).getLast?

section Reading

variable {cfg : Config} {x : Atransport}

/-- The delayed acks are those of the features that were set last. -/
def AcksFollow (cfg : Config) (x : Atransport) : Prop :=
  x.delayedAck = (x.features.contains kFeatureDelayedAck && cfg.delayedAckEnabled)

/-- A property either sets the features or leaves them as they are. -/
theorem parseProp_cases (cfg : Config) (x : Atransport) (prop : Bytes) :
    (∃ v, featuresValue prop = some v ∧ x.parseProp cfg prop = x.setFeatures cfg v) ∨
    (featuresValue prop = none ∧ (x.parseProp cfg prop).features = x.features ∧
      (x.parseProp cfg prop).delayedAck = x.delayedAck) := by
  rw [featuresValue, Atransport.parseProp]
  rcases splitAt 61 prop with _ | ⟨key, _ | ⟨value, _ | ⟨_, _⟩⟩⟩
  · exact Or.inr ⟨rfl, rfl, rfl⟩
  · exact Or.inr ⟨rfl, rfl, rfl⟩
  · by_cases hkey : key = ascii "features"
    · subst hkey
      exact Or.inl ⟨value, rfl, rfl⟩
    · have hbeq : (key == ascii "features") = false := beq_eq_false_iff_ne.mpr hkey
      dsimp only
      rw [hbeq]
      refine Or.inr ⟨rfl, ?_, ?_⟩ <;> split_ifs <;> first | rfl | contradiction
  · exact Or.inr ⟨rfl, rfl, rfl⟩

theorem acksFollow_setFeatures (v : Bytes) : AcksFollow cfg (x.setFeatures cfg v) := rfl

theorem AcksFollow.foldl_parseProp (h : AcksFollow cfg x) (props : List Bytes) :
    AcksFollow cfg (props.foldl (Atransport.parseProp cfg) x) := by
  induction props generalizing x with
  | nil => exact h
  | cons prop props ih =>
    refine ih ?_
    rcases parseProp_cases cfg x prop with ⟨v, -, hset⟩ | ⟨-, hfeatures, hack⟩
    · rw [hset]
      exact acksFollow_setFeatures v
    · rw [AcksFollow, hfeatures, hack]
      exact h

/-- **The last property that sets the features is the one that counts.** -/
theorem features_foldl_parseProp (props : List Bytes) :
    (props.foldl (Atransport.parseProp cfg) x).features =
      ((props.filterMap featuresValue).getLast?.map stringToFeatureSet).getD x.features := by
  induction props generalizing x with
  | nil => rfl
  | cons prop props ih =>
    rw [foldl_cons, ih]
    rcases parseProp_cases cfg x prop with ⟨v, hv, hset⟩ | ⟨hnone, hfeatures, -⟩
    · rw [filterMap_cons_some hv, List.getLast?_cons, hset]
      rcases (props.filterMap featuresValue).getLast? with _ | u <;> rfl
    · rw [filterMap_cons_none hnone, hfeatures]

end Reading

/-! ### What the host reads of a banner -/

/-- What comes before the first colon. -/
def beforeColon (s : Bytes) : Bytes := s.takeWhile (· != 58)

variable {s : Bytes}

theorem beforeColon_eq_self (h : 58 ∉ s) : beforeColon s = s :=
  takeWhile_bne_of_notMem h

theorem not_mem_beforeColon (s : Bytes) : 58 ∉ beforeColon s := fun h => by
  simpa using mem_takeWhile_imp h

theorem beforeColon_append_cons {front : Bytes} (h : 58 ∉ front) (back : Bytes) :
    beforeColon (front ++ 58 :: back) = front :=
  takeWhile_bne_append_cons h back

theorem beforeColon_append (h : 58 ∈ s) (s' : Bytes) : beforeColon (s ++ s') = beforeColon s := by
  obtain ⟨front, back, rfl, hfront⟩ := eq_append_cons_of_mem h
  rw [append_assoc, cons_append, beforeColon_append_cons hfront,
    beforeColon_append_cons hfront]

/-- The first piece between colons. -/
theorem getElem?_splitAt_colon (s : Bytes) : (splitAt 58 s)[0]? = some (beforeColon s) := by
  by_cases h : 58 ∈ s
  · obtain ⟨front, back, rfl, hfront⟩ := eq_append_cons_of_mem h
    rw [splitAt, splitOn_append_cons_self, splitOn_eq_singleton hfront,
      beforeColon_append_cons hfront]
    rfl
  · rw [splitAt, splitOn_eq_singleton h, beforeColon_eq_self h]
    rfl

section Banner

variable {w : World} {t : TransportId} {type : Bytes}

/-- A banner ends at the first colon of its properties. -/
theorem parseBanner_beforeColon (htype : 58 ∉ type) (props : Bytes) :
    parseBanner w (type ++ ascii "::" ++ props) t =
      parseBanner w (type ++ ascii "::" ++ beforeColon props) t := by
  have hpieces : ∀ s, splitAt 58 (type ++ ascii "::" ++ s) = type :: [] :: splitAt 58 s := by
    intro s
    have hfull : type ++ ascii "::" ++ s = type ++ 58 :: ([] ++ 58 :: s) := by
      rw [append_assoc]
      rfl
    rw [hfull, splitAt, splitOn_append_cons_self, splitOn_append_cons_self,
      splitOn_eq_singleton htype]
    rfl
  have hthird : ∀ s, (type :: [] :: splitAt 58 s)[2]? = some (beforeColon s) :=
    getElem?_splitAt_colon
  rw [parseBanner, parseBanner, hpieces, hpieces, hthird, hthird,
    beforeColon_eq_self (not_mem_beforeColon props)]
  rfl

/-- What a host and a device agree on is what the text before the first colon announces. -/
theorem negotiated_parseBanner (h : Good w) (htype : 58 ∉ type) (props : Bytes) :
    Negotiated w.cfg ((parseBanner w (type ++ ascii "::" ++ props) t).transport t) ↔
      announced (beforeColon props) = some featureText := by
  rw [parseBanner_beforeColon htype, parseBanner_transport h htype (not_mem_beforeColon props)]
  set x := (splitAt 59 (beforeColon props)).foldl (Atransport.parseProp w.cfg)
    ((w.transport t).setFeatures w.cfg []) with hx
  have hfeatures : x.features =
      ((announced (beforeColon props)).map stringToFeatureSet).getD [] := by
    rw [hx, features_foldl_parseProp]
    rfl
  have hacks : AcksFollow w.cfg x := (acksFollow_setFeatures []).foldl_parseProp _
  constructor
  · intro hagree
    have hnames := hfeatures.symm.trans hagree.features
    rcases hann : announced (beforeColon props) with _ | v
    · rw [hann] at hnames
      exact absurd hnames (by decide)
    · rw [hann] at hnames
      rw [stringToFeatureSet_eq_iff.mp hnames]
  · intro hann
    have hnames : x.features = featureNames := by
      rw [hfeatures, hann]
      exact stringToFeatureSet_featureText
    have hdelayed : x.delayedAck = w.cfg.delayedAckEnabled := by
      rw [hacks, hnames]
      rfl
    exact ⟨hnames, hdelayed, hnames ▸ (by decide : kFeatureShell2 ∈ featureNames)⟩

/-- The identity strings as they stand in the banner, before the features. -/
def identityText (name model device : Bytes) : Bytes :=
  List.intercalate [59] [ascii "ro.product.name" ++ [61] ++ name,
    ascii "ro.product.model" ++ [61] ++ model, ascii "ro.product.device" ++ [61] ++ device]

theorem mem_identityText_colon {name model device : Bytes} :
    58 ∈ identityText name model device ↔ ∃ v ∈ [name, model, device], 58 ∈ v := by
  have hkeys : ∀ key ∈ [ascii "ro.product.name", ascii "ro.product.model",
      ascii "ro.product.device"], (58 : UInt8) ∉ key := by decide
  simp only [forall_mem_cons] at hkeys
  obtain ⟨hname, hmodel, hdevice, -⟩ := hkeys
  simp [identityText, intercalate_cons_cons, hname, hmodel, hdevice]

theorem intercalate_deviceProperties (name model device features : Bytes) :
    List.intercalate [59] (deviceProperties name model device features) =
      identityText name model device ++ 59 :: (ascii "features" ++ [61] ++ features) := by
  simp [deviceProperties, identityText, intercalate_cons_cons]

/-- The features at the end of a text are those it announces. -/
theorem announced_append (s : Bytes) :
    announced (s ++ 59 :: (ascii "features" ++ [61] ++ featureText)) = some featureText := by
  have hlast : featuresValue (ascii "features" ++ [61] ++ featureText) = some featureText := by
    rw [featuresValue, splitAt_property (by decide) (not_mem_featureText 61 (by decide))]
    rfl
  have hsemi : 59 ∉ ascii "features" ++ [61] ++ featureText := by
    simp only [mem_append, not_or]
    exact ⟨by decide, not_mem_featureText 59 (by decide)⟩
  rw [announced, splitAt, splitOn_append_cons_self, splitOn_eq_singleton hsemi,
    filterMap_append, filterMap_cons_some hlast, filterMap_nil,
    List.getLast?_concat]

/-- **Which identity strings leave the features alone**: those without a colon – whatever else
is in them – and those in which the text before the first colon already announces just the
features of the device. -/
theorem negotiated_iff (h : Good w) (adbDeviceBanner : CString)
    (hbanner : 58 ∉ adbDeviceBanner.bytes) (name model device : Bytes) :
    Negotiated w.cfg ((parseBanner w (getConnectionString adbDeviceBanner (getProperty name)
        (getProperty model) (getProperty device) supportedFeatures) t).transport t) ↔
      (∀ v ∈ [name, model, device], 58 ∉ (getProperty v).bytes) ∨
      announced (beforeColon (identityText (getProperty name).bytes (getProperty model).bytes
        (getProperty device).bytes)) = some featureText := by
  rw [getConnectionString_eq, negotiated_parseBanner h hbanner, intercalate_deviceProperties]
  set identity := identityText (getProperty name).bytes (getProperty model).bytes
    (getProperty device).bytes with hidentity
  have hcolon : 58 ∈ identity ↔ ∃ v ∈ [name, model, device], 58 ∈ (getProperty v).bytes := by
    rw [hidentity, mem_identityText_colon]
    simp
  have htail : 58 ∉ 59 :: (ascii "features" ++ [61] ++ featureText) := by
    simp only [mem_cons, mem_append, not_or]
    exact ⟨by decide, by decide, not_mem_featureText 58 (by decide)⟩
  by_cases hmem : 58 ∈ identity
  · -- The features of the device are cut off.
    have hnot : ¬ ∀ v ∈ [name, model, device], 58 ∉ (getProperty v).bytes := fun hall => by
      obtain ⟨v, hv, hin⟩ := hcolon.mp hmem
      exact hall v hv hin
    have hcut := beforeColon_append hmem (59 :: (ascii "features" ++ [61] ++ featureText))
    rw [or_iff_right hnot, ← hcut]
    rfl
  · have hall : ∀ v ∈ [name, model, device], 58 ∉ (getProperty v).bytes := fun v hv hin =>
      hmem (hcolon.mpr ⟨v, hv, hin⟩)
    have hwhole : 58 ∉ identity ++ 59 :: (ascii "features" ++ [61] ++ featureText) := fun hin =>
      (mem_append.mp hin).elim hmem htail
    refine iff_of_true ?_ (Or.inl hall)
    have hann := announced_append identity
    rw [← beforeColon_eq_self hwhole] at hann
    exact hann

/-- A name that tries to announce features of its own. -/
theorem negotiated_iff_semicolon :
    Negotiated ({} : Config) ((parseBanner (initialWorld {} {}) (getConnectionString
      ⟨ascii "device", by decide⟩ (getProperty (ascii "a;features=none"))
      (getProperty (ascii "b=c")) (getProperty []) supportedFeatures) 1).transport 1) :=
  (negotiated_iff (t := 1) (good_initialWorld {} {}) ⟨ascii "device", by decide⟩ (by decide)
    (ascii "a;features=none") (ascii "b=c") []).mpr (Or.inl (by decide))

/-- **A colon in the name** leaves the host without any feature: it does not delay acks, though
both sides have that enabled, and it does not use the shell protocol. -/
theorem not_negotiated_colon :
    let x := (parseBanner (initialWorld {} {}) (getConnectionString ⟨ascii "device", by decide⟩
      (getProperty (ascii "a:b")) (getProperty []) (getProperty []) supportedFeatures)
      1).transport 1
    x.features = [] ∧ x.delayedAck = false ∧ ({} : Config).delayedAckEnabled = true ∧
      ¬ Negotiated {} x := by
  have hfeatures : ((parseBanner (initialWorld {} {}) (getConnectionString
      ⟨ascii "device", by decide⟩ (getProperty (ascii "a:b")) (getProperty []) (getProperty [])
      supportedFeatures) 1).transport 1).features = [] := by
    decide +kernel
  refine ⟨hfeatures, by decide +kernel, rfl, fun hagree => ?_⟩
  exact absurd (hfeatures.symm.trans hagree.features) (by decide)

end Banner

end AdbBridge

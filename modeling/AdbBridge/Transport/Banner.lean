import AdbBridge.Graph.Server

/-!
# The banner of a device

A device introduces itself with one line: a word for its state, its properties and the features
it has. `get_connection_string` writes the line and `parse_banner` reads it on the host, with
three separators nested in each other. What the device wrote is what the transport then holds,
whatever it held before (`AdbBridge.parseBanner_getConnectionString`).
-/

namespace AdbBridge

open List

/-- The bytes of a C string: a property of the system, or a constant of the program. -/
structure CString where
  bytes : Bytes
  noNul : 0 ∉ bytes

/-- `get_connection_string` of a device. Both `StringPrintf`s read their arguments as C
strings. -/
def getConnectionString (adbDeviceBanner name model device : CString)
    (supportedFeatures : List CString) : Bytes :=
  let connectionProperties : List Bytes :=
    [ascii "ro.product.name" ++ [61] ++ name.bytes,
      ascii "ro.product.model" ++ [61] ++ model.bytes,
      ascii "ro.product.device" ++ [61] ++ device.bytes,
      ascii "features=" ++ cString (featureSetToString (supportedFeatures.map (·.bytes))) []]
  adbDeviceBanner.bytes ++ ascii "::" ++ cString (List.intercalate [59] connectionProperties) []

/-! ### Joining and splitting -/

section Join

variable {d c : UInt8} {l : List Bytes}

theorem not_mem_intercalate (hd : d ≠ c) (hl : ∀ v ∈ l, d ∉ v) : d ∉ List.intercalate [c] l := by
  induction l with
  | nil => simp
  | cons v l ih =>
    have hv : d ∉ v := hl v mem_cons_self
    have htail := ih fun u hu => hl u (mem_cons_of_mem _ hu)
    cases l with
    | nil => simpa using hv
    | cons u l =>
      rw [intercalate_cons_cons, mem_append, mem_append, mem_singleton]
      rintro ((h | h) | h)
      · exact hv h
      · exact hd h
      · exact htail h

theorem cString_of_not_mem {v : Bytes} (h : 0 ∉ v) : cString v [] = v := by
  have hall : ∀ b ∈ v, (b != 0) = true := fun b hb => bne_iff_ne.mpr fun hz => h (hz ▸ hb)
  rw [cString, append_nil, takeWhile_append_of_pos hall]
  simp

/-- A list of features is read back from the text of it. -/
theorem stringToFeatureSet_featureSetToString (hl : ∀ v ∈ l, v ≠ [] ∧ 44 ∉ v) :
    stringToFeatureSet (featureSetToString l) = l := by
  cases l with
  | nil => rfl
  | cons v l =>
    -- The first name is not empty, so the text is not.
    have hne : (featureSetToString (v :: l)).isEmpty = false := by
      obtain ⟨b, v', rfl⟩ := exists_cons_of_ne_nil (hl v mem_cons_self).1
      cases l <;> rfl
    rw [stringToFeatureSet, hne]
    exact splitOn_intercalate 44 (fun u hu => (hl u hu).2) (cons_ne_nil v l)

end Join

/-! ### Reading the properties -/

section Properties

variable {cfg : Config} {x : Atransport} {key v : Bytes}

theorem splitAt_property (hkey : 61 ∉ key) (hv : 61 ∉ v) :
    splitAt 61 (key ++ [61] ++ v) = [key, v] := by
  rw [splitAt, append_assoc, singleton_append, splitOn_append_cons_self,
    splitOn_eq_singleton hkey, splitOn_eq_singleton hv]
  rfl

/-- What a property with the given key sets. -/
theorem parseProp_property (hkey : 61 ∉ key) (hv : 61 ∉ v) :
    x.parseProp cfg (key ++ [61] ++ v) =
      if key == ascii "ro.product.name" then { x with product := v }
      else if key == ascii "ro.product.model" then { x with model := v }
      else if key == ascii "ro.product.device" then { x with device := v }
      else if key == ascii "features" then x.setFeatures cfg v
      else x := by
  rw [Atransport.parseProp, splitAt_property hkey hv]

/-- The properties as a device writes them. -/
def deviceProperties (name model device features : Bytes) : List Bytes :=
  [ascii "ro.product.name" ++ [61] ++ name, ascii "ro.product.model" ++ [61] ++ model,
    ascii "ro.product.device" ++ [61] ++ device, ascii "features" ++ [61] ++ features]

/-- The bytes of the keys. -/
def keyBytes : Bytes := ascii "ro.product.name=ro.product.model=ro.product.device=features="

variable {name model device features : Bytes}

/-- A byte that is in no key and no value is in no property. -/
theorem not_mem_deviceProperties {d : UInt8} (hkeys : d ∉ keyBytes)
    (hvalues : ∀ v ∈ [name, model, device, features], d ∉ v) :
    ∀ p ∈ deviceProperties name model device features, d ∉ p := by
  have hparts : keyBytes = ascii "ro.product.name" ++ [61] ++ (ascii "ro.product.model" ++ [61] ++
      (ascii "ro.product.device" ++ [61] ++ (ascii "features" ++ [61]))) := by decide
  rw [hparts] at hkeys
  simp only [mem_append, not_or] at hkeys
  obtain ⟨⟨hname, heq⟩, ⟨hmodel, -⟩, ⟨hdevice, -⟩, hfeatures, -⟩ := hkeys
  have hproperty : ∀ {key v : Bytes}, d ∉ key → d ∉ v → d ∉ key ++ [61] ++ v := by
    intro key v hkey hv
    simp only [mem_append, not_or]
    exact ⟨⟨hkey, heq⟩, hv⟩
  rw [deviceProperties]
  simp only [forall_mem_cons] at hvalues ⊢
  exact ⟨hproperty hname hvalues.1, hproperty hmodel hvalues.2.1,
    hproperty hdevice hvalues.2.2.1, hproperty hfeatures hvalues.2.2.2.1, nofun⟩

/-- **The four properties of a device, read in order.** -/
theorem foldl_parseProp (hvalues : ∀ v ∈ [name, model, device, features], 61 ∉ v) :
    (deviceProperties name model device features).foldl (Atransport.parseProp cfg) x =
      { x with product := name, model := model, device := device }.setFeatures cfg features := by
  simp only [forall_mem_cons] at hvalues
  obtain ⟨hname, hmodel, hdevice, hfeatures, -⟩ := hvalues
  rw [deviceProperties, foldl_cons, foldl_cons, foldl_cons, foldl_cons,
    foldl_nil, parseProp_property (by decide) hname, parseProp_property (by decide) hmodel,
    parseProp_property (by decide) hdevice, parseProp_property (by decide) hfeatures]
  rfl

end Properties

/-! ### The whole banner -/

variable {w : World} {t : TransportId}

/-- What `parse_banner` leaves in the transport. -/
theorem parseBanner_transport (h : Good w) {type props : Bytes} (htype : 58 ∉ type)
    (hprops : 58 ∉ props) :
    (parseBanner w (type ++ ascii "::" ++ props) t).transport t =
      { (splitAt 59 props).foldl (Atransport.parseProp w.cfg)
          ((w.transport t).setFeatures w.cfg []) with connectionState := bannerState type } := by
  have hpieces : splitAt 58 (type ++ ascii "::" ++ props) = [type, [], props] := by
    have hfull : type ++ ascii "::" ++ props = type ++ 58 :: ([] ++ 58 :: props) := by
      rw [append_assoc]
      rfl
    rw [hfull, splitAt, splitOn_append_cons_self, splitOn_append_cons_self,
      splitOn_eq_singleton htype, splitOn_eq_singleton hprops]
    rfl
  have hgood := good_updTransport (t := t)
    (good_updTransport (t := t) h (·.setFeatures w.cfg []))
    ((splitAt 59 props).foldl (Atransport.parseProp w.cfg))
  have hnet := setConnectionState_net (t := t) hgood (bannerState type)
  have hread : (parseBanner w (type ++ ascii "::" ++ props) t) =
      setConnectionState
        ((w.updTransport t (·.setFeatures w.cfg [])).updTransport t
          ((splitAt 59 props).foldl (Atransport.parseProp w.cfg))) t (bannerState type) := by
    rw [parseBanner, hpieces]
    rfl
  rw [hread, World.transport, hnet, Net.updTransport_self]
  exact congrArg (fun x : Atransport => { x with connectionState := bannerState type })
    ((World.transport_updTransport_self _).trans
      (congrArg _ (World.transport_updTransport_self _)))

section RoundTrip

variable (adbDeviceBanner name model device : CString) (features : List CString)

/-- No NUL cuts the text of the properties short. -/
theorem getConnectionString_eq :
    getConnectionString adbDeviceBanner name model device features =
      adbDeviceBanner.bytes ++ ascii "::" ++ List.intercalate [59]
        (deviceProperties name.bytes model.bytes device.bytes
          (featureSetToString (features.map (·.bytes)))) := by
  have hfeatures : 0 ∉ featureSetToString (features.map (·.bytes)) := by
    refine not_mem_intercalate (by decide) ?_
    rintro _ hv
    obtain ⟨f, -, rfl⟩ := mem_map.mp hv
    exact f.noNul
  have hprops : 0 ∉ List.intercalate [59] (deviceProperties name.bytes model.bytes device.bytes
      (featureSetToString (features.map (·.bytes)))) := by
    refine not_mem_intercalate (by decide) (not_mem_deviceProperties (by decide) ?_)
    simp only [forall_mem_cons]
    exact ⟨name.noNul, model.noNul, device.noNul, hfeatures, nofun⟩
  rw [getConnectionString, cString_of_not_mem hfeatures]
  exact congrArg (adbDeviceBanner.bytes ++ ascii "::" ++ ·) (cString_of_not_mem hprops)

/-- **What a device says of itself is what its transport holds**, whatever it held before. -/
theorem parseBanner_getConnectionString (h : Good w) (hbanner : 58 ∉ adbDeviceBanner.bytes)
    (hvalues : ∀ v ∈ [name, model, device], ∀ d ∈ [58, 59, 61], d ∉ v.bytes)
    (hfeatures : ∀ f ∈ features, f.bytes ≠ [] ∧ ∀ d ∈ [44, 58, 59, 61], d ∉ f.bytes) :
    let x := (parseBanner w (getConnectionString adbDeviceBanner name model device features)
      t).transport t
    x.product = name.bytes ∧ x.model = model.bytes ∧ x.device = device.bytes ∧
      x.features = features.map (·.bytes) ∧
      (x.delayedAck = true ↔
        kFeatureDelayedAck ∈ features.map (·.bytes) ∧ w.cfg.delayedAckEnabled = true) := by
  have htext : ∀ d ∈ [58, 59, 61], d ∉ featureSetToString (features.map (·.bytes)) := by
    intro d hd
    refine not_mem_intercalate (fun h => absurd (h ▸ hd) (by decide)) ?_
    rintro _ hv
    obtain ⟨f, hf, rfl⟩ := mem_map.mp hv
    exact (hfeatures f hf).2 d (mem_cons_of_mem _ hd)
  have hfree : ∀ d ∈ [58, 59, 61], ∀ v ∈ [name.bytes, model.bytes, device.bytes,
      featureSetToString (features.map (·.bytes))], d ∉ v := by
    intro d hd
    simp only [forall_mem_cons]
    exact ⟨hvalues name (by simp) d hd, hvalues model (by simp) d hd,
      hvalues device (by simp) d hd, htext d hd, nofun⟩
  have hset : stringToFeatureSet (featureSetToString (features.map (·.bytes))) =
      features.map (·.bytes) := by
    refine stringToFeatureSet_featureSetToString ?_
    rintro _ hv
    obtain ⟨f, hf, rfl⟩ := mem_map.mp hv
    exact ⟨(hfeatures f hf).1, (hfeatures f hf).2 44 (by decide)⟩
  have hcolon := not_mem_intercalate (c := 59) (by decide)
    (not_mem_deviceProperties (by decide) (hfree 58 (by decide)))
  have hsplit := splitOn_intercalate 59
    (not_mem_deviceProperties (by decide) (hfree 59 (by decide))) (cons_ne_nil _ _)
  rw [getConnectionString_eq, parseBanner_transport h hbanner hcolon, splitAt, hsplit,
    foldl_parseProp (hfree 61 (by decide))]
  refine ⟨rfl, rfl, rfl, hset, ?_⟩
  simp only [Atransport.setFeatures, hset, Bool.and_eq_true, contains_iff_mem]

/-- A device with no model and two features. -/
theorem parseBanner_getConnectionString_noModel :
    let x := (parseBanner (initialWorld {} {}) (getConnectionString ⟨ascii "device", by decide⟩
      ⟨ascii "sdk", by decide⟩ ⟨[], by decide⟩ ⟨ascii "emu", by decide⟩
      [⟨ascii "cmd", by decide⟩, ⟨ascii "delayed_ack", by decide⟩]) 1).transport 1
    x.product = ascii "sdk" ∧ x.model = [] ∧ x.device = ascii "emu" ∧
      x.features = [ascii "cmd", ascii "delayed_ack"] ∧ x.delayedAck = true := by
  obtain ⟨hproduct, hmodel, hdevice, hfeatures, hack⟩ :=
    parseBanner_getConnectionString (t := 1) ⟨ascii "device", by decide⟩
      ⟨ascii "sdk", by decide⟩ ⟨[], by decide⟩ ⟨ascii "emu", by decide⟩
      [⟨ascii "cmd", by decide⟩, ⟨ascii "delayed_ack", by decide⟩] (good_initialWorld {} {})
      (by decide) (by decide +kernel) (by decide +kernel)
  exact ⟨hproduct, hmodel, hdevice, hfeatures, hack.mpr ⟨by decide, rfl⟩⟩

end RoundTrip

end AdbBridge

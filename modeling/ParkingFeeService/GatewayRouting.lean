/-
**Routing requests of the cloud gateway.**

The vehicle of a request is read from its path twice.  `net/http` routes on the escaped path: it
divides the path at its slashes, refuses the ones that cleaning would change, and decodes the parts
one by one, which gives the path values.  The middleware divides the path that is decoded as a
whole, in which an escaped slash is a slash like any other.

Go's strings are sequences of bytes: a character of a path, of a path value, of a header or of a
configured vehicle stands for one byte here.

Main definitions:

* `CloudGateway.RawRequest`, `CloudGateway.routeRequest` — a request and where it is routed to;
* `CloudGateway.vinSegment` — the part of the escaped path that gives the vehicle;
* `CloudGateway.EncodedSlash` — the part contains an escaped slash.

Main results:

* `CloudGateway.escaped_slash_acts_for_other` — a token acts for a vehicle that is not its own;
* `CloudGateway.pathValue_eq_tokenVin_iff` — when the vehicle acted for is that of the token.
-/

import ParkingFeeService.GatewayServer
import ParkingFeeService.PercentDecoding
import Mathlib.Data.List.TakeWhile

set_option relaxedAutoImplicit false
set_option autoImplicit false

namespace CloudGateway

open PercentDecoding

/-! ### Routing -/

/-- A request as it is received, with its path as `EscapedPath` gives it. -/
structure RawRequest where
  method : String
  escapedPath : String
  authorization : String
  body : Option Json

/-- The parts of a path between its slashes. -/
def segments : List Char → Option (List (List Char))
  | '/' :: path => some (path.splitOn '/')
  | _ => none

/-- Cleaning the path leaves the part as it is; a path that changes is redirected, not routed. -/
def CleanSegment (seg : List Char) : Prop := seg ≠ [] ∧ seg ≠ ['.'] ∧ seg ≠ ['.', '.']

instance (seg : List Char) : Decidable (CleanSegment seg) :=
  inferInstanceAs (Decidable (seg ≠ [] ∧ seg ≠ ['.'] ∧ seg ≠ ['.', '.']))

/-- A part of the path as the routes see it. -/
def pathUnescape (seg : List Char) : String := String.ofList ((unescape seg).getD seg)

/-- The registered routes; a route for `GET` also takes `HEAD`. -/
def matchRoute (r : RawRequest) : List String → Option (String × Route)
  | [root, vin, commands] =>
      if r.method = "POST" ∧ root = "vehicles" ∧ commands = "commands" then
        some (vin, .submitCommand r.body)
      else none
  | [root, vin, commands, commandId] =>
      if (r.method = "GET" ∨ r.method = "HEAD") ∧ root = "vehicles" ∧ commands = "commands" then
        some (vin, .getCommandStatus commandId)
      else none
  | [root] =>
      if (r.method = "GET" ∨ r.method = "HEAD") ∧ root = "health" then some ("", .health) else none
  | _ => none

/-- The request that a handler gets, `none` if the request is not routed to one.  A path that cannot
be decoded is refused before. -/
def routeRequest (r : RawRequest) : Option HttpRequest :=
  match unescape r.escapedPath.toList, segments r.escapedPath.toList with
  | some urlPath, some segs =>
      if ∀ seg ∈ segs, CleanSegment seg then
        (matchRoute r (segs.map pathUnescape)).map fun m =>
          ⟨String.ofList urlPath, m.1, r.authorization, m.2⟩
      else none
  | _, _ => none

/-- The part of the escaped path that gives the vehicle, in the routes that have one. -/
def vinSegment (escapedPath : String) : Option (List Char) :=
  match segments escapedPath.toList with
  | some [_, vin, _] => some vin
  | some [_, vin, _, _] => some vin
  | _ => none

/-- The part contains an escaped slash. -/
def EncodedSlash (seg : List Char) : Prop := ['%', '2', 'F'] <:+: seg ∨ ['%', '2', 'f'] <:+: seg

instance (seg : List Char) : Decidable (EncodedSlash seg) :=
  inferInstanceAs (Decidable (['%', '2', 'F'] <:+: seg ∨ ['%', '2', 'f'] <:+: seg))

/-! ### The parts of a path -/

/-- A text with a separator, at the first of them. -/
theorem exists_of_splitOn_eq_cons {sep : Char} {first : List Char} {rest : List (List Char)}
    (hrest : rest ≠ []) :
    ∀ {cs : List Char}, cs.splitOn sep = first :: rest →
      ∃ tail, cs = first ++ sep :: tail ∧ sep ∉ first ∧ tail.splitOn sep = rest := by
  intro cs
  induction cs generalizing first with
  | nil =>
      intro h
      simp at h
      exact absurd h.2 hrest
  | cons c cs ih =>
      intro h
      rw [List.splitOn_cons_eq_if_modifyHead] at h
      by_cases hc : c = sep
      · subst hc
        simp only [beq_self_eq_true, if_true, List.cons.injEq] at h
        exact ⟨cs, by rw [← h.1]; rfl, by simp [← h.1], h.2⟩
      · rw [if_neg (by simpa using hc)] at h
        obtain ⟨first', rest', hsplit⟩ := List.exists_cons_of_ne_nil (List.splitOn_ne_nil sep cs)
        rw [hsplit, List.modifyHead_cons, List.cons.injEq] at h
        obtain ⟨rfl, rfl⟩ := h
        obtain ⟨tail, rfl, hnot, htail⟩ := ih hsplit
        exact ⟨tail, rfl, by simp [hnot, Ne.symm hc], htail⟩

/-- The first part of a text goes up to the first separator. -/
theorem exists_splitOn_eq_takeWhile (sep : Char) (cs : List Char) :
    ∃ more, cs.splitOn sep = cs.takeWhile (· ≠ sep) :: more := by
  induction cs with
  | nil => exact ⟨[], by simp⟩
  | cons c cs ih =>
      obtain ⟨more, ih⟩ := ih
      rw [List.splitOn_cons_eq_if_modifyHead, ih]
      by_cases hc : c = sep
      · exact ⟨cs.takeWhile (· ≠ sep) :: more, by simp [hc]⟩
      · exact ⟨more, by simp [hc]⟩

/-- The escapes of a slash. -/
theorem decodePair_eq_slash_iff {a b : Char} :
    decodePair a b = some '/' ↔ a = '2' ∧ (b = 'F' ∨ b = 'f') := by
  constructor
  · intro h
    obtain ⟨x, hx, h⟩ := Option.bind_eq_some_iff.1 h
    obtain ⟨y, hy, h⟩ := Option.map_eq_some_iff.1 h
    rw [unhex_eq_some_iff] at hx hy
    have hslash : ∀ x < 16, ∀ y < 16, Char.ofNat (16 * x + y) = '/' → x = 2 ∧ y = 15 := by decide
    obtain ⟨rfl, rfl⟩ := hslash x hx.1 y hy.1 h
    have ha : a.toNat = '2'.toNat := show a.toNat = 50 by omega
    have hb : b.toNat = 'F'.toNat ∨ b.toNat = 'f'.toNat :=
      show b.toNat = 70 ∨ b.toNat = 102 by omega
    exact ⟨Char.toNat_inj.1 ha, hb.imp Char.toNat_inj.1 Char.toNat_inj.1⟩
  · rintro ⟨rfl, rfl | rfl⟩ <;> decide

theorem escaped_slash_iff {seg : List Char} : Escaped '/' seg ↔ EncodedSlash seg := by
  constructor
  · rintro ⟨a, b, hab, hin⟩
    obtain ⟨rfl, rfl | rfl⟩ := decodePair_eq_slash_iff.1 hab
    · exact .inl hin
    · exact .inr hin
  · rintro (hin | hin)
    · exact ⟨'2', 'F', by decide, hin⟩
    · exact ⟨'2', 'f', by decide, hin⟩

/-! ### The vehicle of a routed request -/

/-- A route with a vehicle. -/
theorem matchRoute_vin {r : RawRequest} {root vin commands : String} {more : List String}
    {m : String × Route} (h : matchRoute r (root :: vin :: commands :: more) = some m) :
    root = "vehicles" ∧ m.1 = vin := by
  match more, h with
  | [], h | [commandId], h =>
      obtain ⟨⟨-, hroot, -⟩, h⟩ := Option.ite_none_right_eq_some.1 h
      cases h
      exact ⟨hroot, rfl⟩

/-- A path with a vehicle has a part before it and one after it. -/
theorem vinSegment_eq_some {escapedPath : String} {seg : List Char}
    (h : vinSegment escapedPath = some seg) :
    ∃ root tail commands more, escapedPath.toList = '/' :: (root ++ '/' :: (seg ++ '/' :: tail)) ∧
      '/' ∉ seg ∧ segments escapedPath.toList = some (root :: seg :: commands :: more) := by
  have hsegs : ∃ root commands more,
      segments escapedPath.toList = some (root :: seg :: commands :: more) := by
    rw [vinSegment] at h
    split at h
    · next root vin commands hs =>
        cases h
        exact ⟨_, _, _, hs⟩
    · next root vin commands commandId hs =>
        cases h
        exact ⟨_, _, _, hs⟩
    · cases h
  obtain ⟨root, commands, more, hsegs⟩ := hsegs
  have hsplit := hsegs
  rw [segments.eq_def] at hsplit
  split at hsplit
  · next path hpath =>
      obtain ⟨tail, rfl, -, htail⟩ :=
        exists_of_splitOn_eq_cons (by simp) (Option.some.inj hsplit)
      obtain ⟨tail', rfl, hnot, -⟩ := exists_of_splitOn_eq_cons (by simp) htail
      exact ⟨root, tail', commands, more, hpath, hnot, hsegs⟩
  · cases hsplit

/-- The escaped path of a request with a vehicle, and what the handler and the middleware get of
it. -/
theorem route_vin {r : RawRequest} {req : HttpRequest} {seg : List Char}
    (hroute : routeRequest r = some req) (hseg : vinSegment r.escapedPath = some seg) :
    '/' ∉ seg ∧ ∃ vin rest, unescape seg = some vin ∧ req.vin = String.ofList vin ∧
      req.urlPath = String.ofList ('/' :: ("vehicles".toList ++ '/' :: (vin ++ '/' :: rest))) := by
  obtain ⟨root, tail, commands, more, hpath, hnot, hsegs⟩ := vinSegment_eq_some hseg
  rw [routeRequest, hsegs] at hroute
  split at hroute
  · next urlPath segs hurl hsegs' =>
      cases hsegs'
      obtain ⟨-, hroute⟩ := Option.ite_none_right_eq_some.1 hroute
      obtain ⟨m, hm, rfl⟩ := Option.map_eq_some_iff.1 hroute
      obtain ⟨hroot, hvin⟩ := matchRoute_vin hm
      -- the whole is decoded part by part
      have hne : '/' ≠ '%' := by decide
      rw [hpath, unescape_cons_of_ne hne, unescape_append_sep hne (by decide),
        unescape_append_sep hne (by decide)] at hurl
      obtain ⟨path, hdec, rfl⟩ := Option.map_eq_some_iff.1 hurl
      obtain ⟨root', hroot', hdec'⟩ := Option.bind_eq_some_iff.1 hdec
      obtain ⟨path', hdec'', rfl⟩ := Option.map_eq_some_iff.1 hdec'
      obtain ⟨vin, hvin', htail⟩ := Option.bind_eq_some_iff.1 hdec''
      obtain ⟨rest, -, rfl⟩ := Option.map_eq_some_iff.1 htail
      rw [pathUnescape, hroot', Option.getD_some] at hroot
      rw [pathUnescape, hvin', Option.getD_some] at hvin
      refine ⟨hnot, vin, rest, hvin', hvin, ?_⟩
      rw [← hroot, String.toList_ofList]
  · cases hroute

/-- What the middleware finds in the path decoded. -/
theorem extractVinFromPath_decoded (vin rest : List Char) :
    extractVinFromPath (String.ofList
      ('/' :: ("vehicles".toList ++ '/' :: (vin ++ '/' :: rest)))) =
        String.ofList (vin.takeWhile (· ≠ '/')) := by
  obtain ⟨more, hvin⟩ := exists_splitOn_eq_takeWhile '/' vin
  rw [extractVinFromPath, String.toList_ofList, if_pos (by simp), List.tail_cons,
    List.splitOn_append_cons_self_of_not_mem (by decide), List.splitOn_append_cons_self, hvin]
  exact if_pos rfl

/-- A request that is let through has the token of the vehicle that the middleware finds. -/
theorem getVinForToken_of_middleware {cfg : Config} {r : HttpRequest}
    (h : middleware cfg r = none) :
    getVinForToken cfg (extractToken r.authorization) = some (extractVinFromPath r.urlPath) := by
  rw [middleware] at h
  split at h
  · cases h
  · split at h
    · cases h
    · next tokenVin hvin =>
        split at h
        · cases h
        · next heq => rw [hvin, not_not.1 heq]

/-- **The vehicle acted for is that of the token** exactly if the part of the escaped path that
gives it contains no escaped slash. -/
theorem pathValue_eq_tokenVin_iff {cfg : Config} {r : RawRequest} {req : HttpRequest}
    {seg : List Char} (hroute : routeRequest r = some req)
    (hseg : vinSegment r.escapedPath = some seg) (hpass : middleware cfg req = none) :
    getVinForToken cfg (extractToken req.authorization) = some req.vin ↔ ¬ EncodedSlash seg := by
  obtain ⟨hnot, vin, rest, hvin, hreq, hpath⟩ := route_vin hroute hseg
  have hmem : '/' ∈ vin ↔ EncodedSlash seg := by
    rw [mem_unescape_iff (by decide) (by decide) hvin, or_iff_right hnot, escaped_slash_iff]
  rw [getVinForToken_of_middleware hpass, hpath, extractVinFromPath_decoded, hreq, ← hmem,
    Option.some.injEq, String.ofList_inj, List.takeWhile_eq_self_iff]
  constructor
  · intro h hslash
    simpa using h _ hslash
  · intro h c hc
    simpa using ne_of_mem_of_not_mem hc h

/-- A configuration with one token. -/
def cfgA : Config := ⟨30, [⟨"tok-a", "VIN-A"⟩]⟩

/-- A submission of a command for the vehicle that the path names. -/
def submitTo (escapedPath : String) : RawRequest where
  method := "POST"
  escapedPath := escapedPath
  authorization := "Bearer tok-a"
  body := some (encodeCommand ⟨"c-1", "lock", some ["driver"]⟩)

/-- Other escapes do no harm. -/
theorem tokenVin_of_escaped_hyphen :
    ∃ req, routeRequest (submitTo "/vehicles/VIN%2DA/commands") = some req ∧
      (getVinForToken cfgA (extractToken req.authorization) = some req.vin ↔
        ¬ EncodedSlash "VIN%2DA".toList) := by
  have hrun : (routeRequest (submitTo "/vehicles/VIN%2DA/commands")).map (fun req =>
      (middleware cfgA req).isNone) = some true := by decide +kernel
  obtain ⟨req, hreq, hpass⟩ := Option.map_eq_some_iff.1 hrun
  have hseg : vinSegment (submitTo "/vehicles/VIN%2DA/commands").escapedPath =
      some "VIN%2DA".toList := by decide +kernel
  exact ⟨req, hreq, pathValue_eq_tokenVin_iff hreq hseg (Option.isNone_iff_eq_none.1 hpass)⟩

/-- **A token acts for a vehicle that is not its own**: the middleware sees `VIN-A`, and the command
is published for `VIN-A/X`. -/
theorem escaped_slash_acts_for_other :
    ¬ ∀ (cfg : Config) (r : RawRequest) (req : HttpRequest), routeRequest r = some req →
      (vinSegment r.escapedPath).isSome → middleware cfg req = none →
        getVinForToken cfg (extractToken req.authorization) = some req.vin := by
  intro hall
  have hrun : (routeRequest (submitTo "/vehicles/VIN-A%2FX/commands")).map (fun req =>
      decide ((middleware cfgA req).isNone ∧ req.vin = "VIN-A/X" ∧
        getVinForToken cfgA (extractToken req.authorization) = some "VIN-A")) =
          some true := by decide +kernel
  obtain ⟨req, hreq, hd⟩ := Option.map_eq_some_iff.1 hrun
  obtain ⟨hpass, hvin, htoken⟩ := of_decide_eq_true hd
  have hsame := hall cfgA _ req hreq (by decide) (Option.isNone_iff_eq_none.1 hpass)
  rw [htoken, hvin] at hsame
  revert hsame
  decide

end CloudGateway

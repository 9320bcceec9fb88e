import Mathlib.Data.List.TakeWhile
import TweeLint.Http.Message

/-!
# The path in an address

The address of a request is put together from its host and its path, and the path is read off it
again. It is the same path if the request is plain (`Request.Plain`): nothing in its host or its path
means something else in an address.

Otherwise it need not be. A host with a slash and a question mark in it brings its own path along,
and the path of the request becomes a part of the query (`Request.addressPath?_of_host`).
-/

namespace TweeLint.Http

/-! ### Reading the parts -/

namespace Address

variable {name path tail cs : List Char} {part : Char → Bool}

/-- Whether a text stands for itself in a part of an address, as far as its characters go: none of
them ends the part, and none is dropped. -/
def isPlainIn (part : Char → Bool) (cs : List Char) : Bool :=
  cs.all fun c => part c && isKept c

theorem part_of_isPlainIn (h : isPlainIn part cs = true) : ∀ c ∈ cs, part c = true :=
  fun c hc => (Bool.and_eq_true_iff.mp (List.all_eq_true.mp h c hc)).1

theorem filter_isKept_of_isPlainIn (h : isPlainIn part cs = true) : cs.filter isKept = cs :=
  List.filter_eq_self.mpr fun c hc => (Bool.and_eq_true_iff.mp (List.all_eq_true.mp h c hc)).2

theorem cleaned_origin (scheme : Scheme) (rest : List Char) :
    cleaned (scheme.name.toList ++ "://".toList ++ rest) =
      scheme.name.toList ++ "://".toList ++ rest.filter isKept := by
  cases scheme with
  | http => rfl
  | https => rfl

theorem behindScheme_origin (scheme : Scheme) (rest : List Char) :
    behindScheme (scheme.name.toList ++ "://".toList ++ rest) = '/' :: '/' :: rest := by
  cases scheme with
  | http => rfl
  | https => rfl

/-- A host ends where a path begins. -/
theorem host_append (hname : ∀ c ∈ name, isHostChar c = true) (hslash : path.head? = some '/') :
    host ('/' :: '/' :: (name ++ path)) = (name, path) := by
  obtain ⟨names, rfl⟩ := List.head?_eq_some_iff.mp hslash
  have hstop : ¬ isHostChar '/' = true := by decide
  rw [host, List.takeWhile_append_of_pos hname, List.takeWhile_cons_of_neg hstop, List.append_nil,
    List.dropWhile_append_of_pos hname, List.dropWhile_cons_of_neg hstop]

/-- A path ends where a query begins. -/
theorem takeWhile_isPathChar (hpath : ∀ c ∈ path, isPathChar c = true)
    (htail : ∀ c ∈ tail.head?, isPathChar c = false) :
    (path ++ tail).takeWhile isPathChar = path := by
  rw [List.takeWhile_append_of_pos hpath]
  cases tail with
  | nil => exact List.append_nil path
  | cons c tail => rw [List.takeWhile_cons_of_neg (by simp [htail c rfl]), List.append_nil]

/-- What ends a path is not dropped in front of it. -/
theorem head?_filter_isKept (htail : ∀ c ∈ tail.head?, isPathChar c = false) :
    ∀ c ∈ (tail.filter isKept).head?, isPathChar c = false := by
  cases tail with
  | nil => exact htail
  | cons c tail =>
    have hkept : isKept c = true := by
      have hends := htail c rfl
      simp only [isPathChar, Bool.and_eq_false_iff, bne_eq_false_iff_eq] at hends
      rcases hends with rfl | rfl
      · decide
      · decide
    rw [List.filter_cons_of_pos hkept]
    exact htail

/-- **The path of an address** that is put together from a host and a path, with a query or nothing
behind them. -/
theorem path?_origin (scheme : Scheme) (hhost : isHost name = true)
    (hname : isPlainIn isHostChar name = true) (hslash : path.head? = some '/')
    (hpath : isPlainIn isPathChar path = true)
    (htail : ∀ c ∈ tail.head?, isPathChar c = false) :
    path? (scheme.name.toList ++ "://".toList ++ (name ++ (path ++ tail))) = some path := by
  have hkept : (name ++ (path ++ tail)).filter isKept = name ++ (path ++ tail.filter isKept) := by
    rw [List.filter_append, List.filter_append, filter_isKept_of_isPlainIn hname,
      filter_isKept_of_isPlainIn hpath]
  have hslash' : (path ++ tail.filter isKept).head? = some '/' := by
    rw [List.head?_append, hslash, Option.some_or]
  rw [path?, cleaned_origin, hkept, behindScheme_origin,
    host_append (part_of_isPlainIn hname) hslash']
  simp only [hhost, if_true, takeWhile_isPathChar (part_of_isPlainIn hpath)
    (head?_filter_isKept htail)]

end Address

/-! ### Requests -/

namespace Request

open Address (isHost isHostChar isPathChar isPlainIn)

variable {r : Request} {authority : String} {query : List Char}

/-- A request whose address means what the request says. Its host can be one, and nothing ends it;
its path begins with a slash, and nothing ends it; and its query is UTF-8. -/
structure Plain (r : Request) : Prop where
  host : ∃ authority, r.authority? = some authority ∧ isHost authority.toList = true ∧
    isPlainIn isHostChar authority.toList = true
  slash : r.path.toList.head? = some '/'
  path : isPlainIn isPathChar r.path.toList = true
  query : ∃ query, Text.Utf8.decode r.query = .ok query

/-- The parts of an address, with all that is behind the path. -/
theorem addressPath?_eq_path? (hauthority : r.authority? = some authority)
    (hquery : Text.Utf8.decode r.query = .ok query) :
    ∃ tail : List Char, (∀ c ∈ tail.head?, isPathChar c = false) ∧
      r.addressPath? = Address.path? (r.scheme.name.toList ++ "://".toList ++
        (authority.toList ++ (r.path.toList ++ tail))) := by
  have horigin : r.address r.path =
      r.scheme.name.toList ++ "://".toList ++ (authority.toList ++ r.path.toList) := by
    rw [address, origin, hauthority, String.toList_append, ← List.append_assoc]
    congr 1
    exact (String.toList_append).trans (congrArg (· ++ authority.toList) String.toList_append)
  refine ⟨if query.isEmpty then [] else '?' :: query, ?_, ?_⟩
  · split
    · exact fun c hc => nomatch hc
    · intro c hc
      obtain rfl := Option.some.inj hc
      decide
  · simp only [addressPath?, hquery, horigin, List.append_assoc]

/-- **The path of a plain request** is the path in its address. -/
theorem Plain.addressPath?_eq (h : r.Plain) : r.addressPath? = some r.path.toList := by
  obtain ⟨authority, hauthority, hhost, hname⟩ := h.host
  obtain ⟨query, hquery⟩ := h.query
  obtain ⟨tail, htail, haddress⟩ := addressPath?_eq_path? hauthority hquery
  rw [haddress, Address.path?_origin r.scheme hhost hname h.slash h.path htail]

end Request

end TweeLint.Http

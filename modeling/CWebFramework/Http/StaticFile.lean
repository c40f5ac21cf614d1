import CWebFramework.Http.Dispatch
import CWebFramework.Misc.Paths

/-!
# Files below the document root

`http_get_file_full_path` and the paths that it hands to the file system.  The
path of a request is tested for components `..` with its length, but the file
system reads a C string: what stands behind a NUL is tested and not used, and a
component that is cut off there has not been tested.
-/

namespace CWebFramework.Http

open CWebFramework.Path

/-! ## The lookup -/

inductive FileKind where
  | regular
  | directory
  | other
  deriving DecidableEq, Repr

/-- `PATH_MAX`, the size of `file_full_path`. -/
def pathMax : Nat := 4096

/-- `data_appendn`, with the bytes before the position. -/
def dataAppendn (data string : Bytes) : Option Bytes :=
  if pathMax ≤ data.length then none
  else if pathMax - data.length ≤ string.length then none
  else some (data ++ string)

/-- The result of the lookup, the path in the buffer and the C strings that
were given to `stat` on the way. -/
structure FileLookup where
  status : FileStatus
  path : Bytes
  probes : List Bytes
  deriving DecidableEq, Repr

def appendBehindSlash (hasSlash : Bool) (data string : Bytes) : Option Bytes :=
  if hasSlash then dataAppendn data string
  else (dataAppendn data [Byte.slash]).bind (dataAppendn · string)

def httpGetFileFullPath (stat : Bytes → Option FileKind) (root : Bytes)
    (index : Option Bytes) (path : Bytes) : FileLookup :=
  match (dataAppendn [] root).bind (appendBehindSlash (path.head? == some Byte.slash) · path) with
  | none => ⟨.notFound, [], []⟩
  | some file =>
    match stat (cstring file) with
    | none => ⟨.notFound, file, [cstring file]⟩
    | some .other => ⟨.notFound, file, [cstring file]⟩
    | some .regular => ⟨.ok, file, [cstring file]⟩
    | some .directory =>
      match index with
      | none => ⟨.forbidden, file, [cstring file]⟩
      | some index =>
        match appendBehindSlash (file.getLast? == some Byte.slash) file index with
        | none => ⟨.notFound, file, [cstring file]⟩
        | some indexFile =>
          ⟨if stat (cstring indexFile) = some .regular then .ok
            else .forbidden,
            indexFile, [cstring file, cstring indexFile]⟩

/-! ## The test of the path -/

private theorem pathTraversalScan_cons (first second third byte : UInt8) (rest : Bytes) :
    pathTraversalScan first second third (byte :: rest) =
      ((first == Byte.slash && second == Byte.dot && third == Byte.dot &&
        byte == Byte.slash) || pathTraversalScan second third byte rest) :=
  rfl

theorem pathTraversalScan_slash (first second third : UInt8) (name rest : Bytes) : ∃ before behind,
      pathTraversalScan first second third (name ++ Byte.slash :: rest) = true ∨
        pathTraversalScan first second third (name ++ Byte.slash :: rest) =
          pathTraversalScan before behind Byte.slash rest := by
  induction name generalizing first second third with
  | nil =>
    refine ⟨second, third, ?_⟩
    rw [List.nil_append, pathTraversalScan_cons]
    cases first == Byte.slash && second == Byte.dot && third == Byte.dot &&
      Byte.slash == Byte.slash with
    | true => exact .inl rfl
    | false => exact .inr rfl
  | cons byte name ih =>
    rw [List.cons_append, pathTraversalScan_cons]
    cases first == Byte.slash && second == Byte.dot && third == Byte.dot && byte == Byte.slash with
    | true => exact ⟨0, 0, .inl rfl⟩
    | false => exact ih second third byte

variable {path : Bytes}

/-- A path that passes the test has no component `..`. -/
theorem parent_notMem_components {first second : UInt8}
    (passes : pathTraversalScan first second Byte.slash path = false) :
    ascii ".." ∉ components path := by
  induction path using components_induction generalizing first second with
  | last name noSlash =>
    rw [components_free noSlash, List.mem_singleton]
    rintro rfl
    cases first == Byte.slash <;> simp [pathTraversalScan, ascii] at passes
  | more name rest noSlash ih =>
    rw [components_cons noSlash, List.mem_cons, not_or]
    constructor
    · rintro rfl
      simp [pathTraversalScan, ascii] at passes
    · obtain ⟨before, behind, found | same⟩ :=
        pathTraversalScan_slash first second Byte.slash name rest
      · rw [found] at passes
        cases passes
      · rw [same] at passes
        exact ih passes

private theorem urldecodel_slash (rest : Bytes) :
    urldecodel (Byte.slash :: rest) = Byte.slash :: urldecodel rest := by
  match rest with
  | [] => rfl
  | [_] => rfl
  | _ :: _ :: _ => rfl

/-- What the parser knows of the path of an accepted target. -/
structure Checked (path : Bytes) : Prop where
  starts : path.head? = some Byte.slash
  passes : isPathTraversal path = false

variable {request : Request}

theorem httpparserSetUri_checked {accepted : Request} {uri : Bytes}
    (parsed : httpparserSetUri request uri = some accepted) :
    Checked accepted.path := by
  unfold httpparserSetUri at parsed
  split_ifs at parsed with noSlash
  dsimp only at parsed
  split_ifs at parsed with traverses
  cases parsed
  refine ⟨?_, by simpa using traverses⟩
  cases uri with
  | nil => exact absurd nofun noSlash
  | cons first rest =>
    have isSlash : first = Byte.slash := by simpa using noSlash
    subst isSlash
    have kept : List.takeWhile (fun byte => !isPathEnd byte) (Byte.slash :: rest) =
        Byte.slash :: rest.takeWhile (fun byte => !isPathEnd byte) := rfl
    show (urldecodel _).head? = _
    rw [kept, urldecodel_slash]
    rfl

/-! ## What is looked up -/

theorem dataAppendn_eq (data string : Bytes) : dataAppendn data string =
      if data.length + string.length < pathMax then some (data ++ string)
      else none := by
  unfold dataAppendn
  split_ifs <;> first | rfl | omega

private theorem lookup_file (root : Bytes) (starts : path.head? = some Byte.slash) :
    (dataAppendn [] root).bind (appendBehindSlash (path.head? == some Byte.slash) · path) =
      if root.length + path.length < pathMax then some (root ++ path)
      else none := by
  have isSlash : (path.head? == some Byte.slash) = true := by simp [starts]
  rw [isSlash, dataAppendn_eq, List.length_nil, Nat.zero_add, List.nil_append]
  by_cases fits : root.length < pathMax
  · rw [if_pos fits, Option.bind_some, appendBehindSlash, if_pos rfl, dataAppendn_eq]
  · rw [if_neg fits, if_neg (by omega)]
    rfl

def indexLength (file index : Bytes) : Nat :=
  file.length + (if file.getLast? = some Byte.slash then 0 else 1) + index.length

theorem lookup_index (file index : Bytes) :
    appendBehindSlash (file.getLast? == some Byte.slash) file index =
      if indexLength file index < pathMax then
        some (file ++ (if file.getLast? = some Byte.slash then []
          else [Byte.slash]) ++ index)
      else none := by
  unfold appendBehindSlash indexLength
  by_cases hasSlash : file.getLast? = some Byte.slash
  · simp only [hasSlash, beq_self_eq_true, if_true, dataAppendn_eq, Nat.add_zero, List.append_nil]
  · have noSlash : (file.getLast? == some Byte.slash) = false := beq_eq_false_iff_ne.mpr hasSlash
    simp only [noSlash, Bool.false_eq_true, if_false, hasSlash,
      dataAppendn_eq, List.length_singleton]
    by_cases fits : file.length + 1 < pathMax
    · rw [if_pos fits, Option.bind_some, List.length_append, List.length_singleton]
    · rw [if_neg fits, if_neg (by omega)]
      rfl

variable {stat : Bytes → Option FileKind} {root : Bytes}
  {index : Option Bytes}

/-- The C strings that are given to `stat`: the path of the file and, below a
directory, the path of its index file. -/
theorem mem_probes_iff (starts : path.head? = some Byte.slash) (probe : Bytes) :
    probe ∈ (httpGetFileFullPath stat root index path).probes ↔
      root.length + path.length < pathMax ∧ (probe = cstring (root ++ path) ∨
          stat (cstring (root ++ path)) = some .directory ∧
            ∃ name ∈ index, indexLength (root ++ path) name < pathMax ∧
              probe = cstring (root ++ path ++ (if (root ++ path).getLast? = some Byte.slash then []
                  else [Byte.slash]) ++ name)) := by
  unfold httpGetFileFullPath
  rw [lookup_file root starts]
  by_cases fits : root.length + path.length < pathMax
  · rw [if_pos fits]
    generalize root ++ path = file
    dsimp only
    cases isFile : stat (cstring file) with
    | none => simp [fits]
    | some kind =>
      cases kind with
      | regular => simp [fits]
      | other => simp [fits]
      | directory =>
        cases index with
        | none => simp [fits]
        | some name =>
          dsimp only
          rw [lookup_index]
          by_cases room : indexLength file name < pathMax
          · simp [fits, room]
          · simp [fits, room]
  · rw [if_neg fits]
    simp [fits]

private theorem cstring_isPrefix (text : Bytes) : cstring text <+: text := List.takeWhile_prefix _

theorem file_inside_iff (noNul : 0 ∉ root) (checked : Checked path) :
    Inside root (cstring (root ++ path)) ↔
      (directory root).IsTop ∨ climbs (cstring path) = false := by
  obtain ⟨rest, rfl⟩ : ∃ rest, path = Byte.slash :: rest := by
    cases path with
    | nil => cases checked.starts
    | cons first rest => exact ⟨rest, by rw [Option.some.inj checked.starts]⟩
  have kept : cstring (Byte.slash :: rest) = Byte.slash :: cstring rest := rfl
  have below : ascii ".." ∉ components (Byte.slash :: rest) :=
    parent_notMem_components checked.passes
  have onlyLast : ascii ".." ∉ (components (cstring rest)).dropLast := by
    intro isIn
    apply below
    rw [← List.nil_append (Byte.slash :: rest), components_cons List.not_mem_nil]
    exact List.mem_cons_of_mem _ (List.mem_of_mem_dropLast
      (mem_dropLast_components (cstring_isPrefix rest) isIn))
  unfold Inside
  rw [cstring_append noNul, kept, locate_append, climbs_slash]
  exact within_components_iff (directory root) onlyLast

theorem locate_index {name : Bytes} (noNul : 0 ∉ root ++ path) : locate (cstring (root ++ path ++
        (if (root ++ path).getLast? = some Byte.slash then []
          else [Byte.slash]) ++ name)) =
      locate (root ++ path ++ Byte.slash :: cstring name) := by
  generalize root ++ path = file at noNul
  by_cases hasSlash : file.getLast? = some Byte.slash
  · obtain ⟨front, rfl⟩ := List.getLast?_eq_some_iff.mp hasSlash
    rw [if_pos hasSlash, List.append_nil, cstring_append noNul,
      locate_append, directory_eq_locate (by simp), List.append_assoc,
      List.singleton_append, locate_append]
    rfl
  · rw [if_neg hasSlash, List.append_assoc, cstring_append noNul]
    rfl

/-- When everything that a lookup gives to `stat` lies inside the root: the
path up to its first NUL does not end with a `..` that leaves the root, and the
index file of the directory does not leave it. -/
def LookupContained (root : Bytes) (index : Option Bytes) (path : Bytes) :
    Prop :=
  root.length + path.length < pathMax → ((directory root).IsTop ∨ climbs (cstring path) = false) ∧
      ∀ name ∈ index, 0 ∉ path → indexLength (root ++ path) name < pathMax →
        Inside root (root ++ path ++ Byte.slash :: cstring name)

theorem probes_contained_iff (noNul : 0 ∉ root) (checked : Checked path) :
    (∀ stat, ∀ probe ∈ (httpGetFileFullPath stat root index path).probes,
      Inside root probe) ↔ LookupContained root index path := by
  constructor
  · intro inside fits
    have all {probe : Bytes} := inside (fun _ => some .directory) probe
    refine ⟨?_, fun name isIndex pathNoNul room => ?_⟩
    · rw [← file_inside_iff noNul checked]
      apply all
      rw [mem_probes_iff checked.starts]
      exact ⟨fits, .inl rfl⟩
    · have both : 0 ∉ root ++ path := by
        rw [List.mem_append, not_or]
        exact ⟨noNul, pathNoNul⟩
      unfold Inside
      rw [← locate_index both]
      apply all
      rw [mem_probes_iff checked.starts]
      exact ⟨fits, .inr ⟨rfl, name, isIndex, room, rfl⟩⟩
  · intro contained stat probe isProbe
    obtain ⟨fits, isFile | ⟨-, name, isIndex, room, isProbe⟩⟩ :=
      (mem_probes_iff checked.starts probe).mp isProbe
    · rw [isFile, file_inside_iff noNul checked]
      exact (contained fits).1
    · rw [isProbe]
      by_cases pathNoNul : 0 ∈ path
      · -- the name of the index file stands behind the NUL
        rw [List.append_assoc, cstring_append_of_mem (List.mem_append_right root pathNoNul),
          file_inside_iff noNul checked]
        exact (contained fits).1
      · have both : 0 ∉ root ++ path := by
          rw [List.mem_append, not_or]
          exact ⟨noNul, pathNoNul⟩
        unfold Inside
        rw [locate_index both]
        exact (contained fits).2 name isIndex pathNoNul room

/-! ## Redirects -/

/-- A chain of internal rewritings. -/
inductive Rewritten (pcreExec : Bytes → Bytes → PcreMatch)
    (redirects : List Redirect) : Request → Request → Prop where
  | refl (request : Request) : Rewritten pcreExec redirects request request
  | step {first next last : Request} {redirect : Redirect}
      {result : PcreMatch}
      (found : findRedirect pcreExec redirects first.path = some (redirect, result))
      (rewritten : httpparserSetUri { first with uri := [], path := [] }
        (redirectGetUri redirect first.path result) = some next)
      (rest : Rewritten pcreExec redirects next last) :
      Rewritten pcreExec redirects first last

theorem Rewritten.checked {pcreExec : Bytes → Bytes → PcreMatch} {redirects : List Redirect}
    {first last : Request} (chain : Rewritten pcreExec redirects first last)
    (checked : Checked first.path) : Checked last.path := by
  induction chain with
  | refl request => exact checked
  | step found rewritten rest ih =>
    exact ih (httpparserSetUri_checked rewritten)

variable {pcreExec : Bytes → Bytes → PcreMatch} {redirects : List Redirect}

/-! ## The lookup of a request -/

private theorem getRedirectLoop_rewriting (cycles : Nat) (request : Request) (keepalive : Bool) :
    (getRedirectLoop pcreExec redirects cycles true request keepalive).status ≠ .notFound := by
  induction cycles generalizing request with
  | zero => exact nofun
  | succ cycles ih =>
    unfold getRedirectLoop
    split
    · exact nofun
    · dsimp only
      split_ifs
      · exact nofun
      · split
        · intro isSame
          cases isSame
        · exact ih _

theorem getRedirectLoop_notFound (cycles : Nat) {keepalive : Bool}
    (notFound : (getRedirectLoop pcreExec redirects cycles false request
      keepalive).status = .notFound) :
    (getRedirectLoop pcreExec redirects cycles false request keepalive).request = request := by
  cases cycles with
  | zero => rfl
  | succ cycles =>
    unfold getRedirectLoop at notFound ⊢
    split at notFound
    · rfl
    · dsimp only at notFound ⊢
      split_ifs at notFound ⊢
      split at notFound
      · cases notFound
      · exact absurd notFound (getRedirectLoop_rewriting cycles _ keepalive)

/-! ## Containment -/

/-- Everything that the lookup of an accepted target gives to the file system
lies inside the document root exactly if the lookup is contained, also behind
any chain of rewritings. -/
theorem probes_inside_iff {server : Server} (noNul : 0 ∉ server.root)
    (index : Option Bytes) {accepted last : Request} {target : Bytes}
    (isAccepted : httpparserSetUri request target = some accepted)
    (chain : Rewritten pcreExec server.redirect accepted last) :
    (∀ stat, ∀ probe ∈ (httpGetFileFullPath stat server.root index last.path).probes,
      Inside server.root probe) ↔
      LookupContained server.root index last.path :=
  probes_contained_iff noNul (chain.checked (httpparserSetUri_checked isAccepted))

/-- Without a NUL in the path and without `..` in the name of the index file
the lookup is contained. -/
theorem lookupContained_of_noNul (checked : Checked path) (noNul : 0 ∉ path)
    (plainIndex : ∀ name ∈ index, ascii ".." ∉ components (cstring name)) :
    LookupContained root index path := by
  have noParent : ascii ".." ∉ components path := parent_notMem_components checked.passes
  intro _
  constructor
  · rw [cstring_of_notMem noNul]
    exact .inr (climbs_of_notMem noParent)
  · intro name isIndex _ _
    obtain ⟨rest, rfl⟩ : ∃ rest, path = Byte.slash :: rest := by
      cases path with
      | nil => cases checked.starts
      | cons first rest =>
        exact ⟨rest, by rw [Option.some.inj checked.starts]⟩
    have shape : components (Byte.slash :: rest) = [] :: components rest :=
      components_cons List.not_mem_nil rest
    rw [shape, List.mem_cons, not_or] at noParent
    unfold Inside
    rw [List.append_assoc, List.cons_append, locate_append, pathMoves_append]
    apply (Location.Within.refl _).walk
    rw [List.mem_append, up_mem_pathMoves_iff, up_mem_pathMoves_iff, not_or]
    exact ⟨noParent.2, plainIndex name isIndex⟩

def wwwServer : Server where
  ip := 0
  port := 80
  domain := []
  root := ascii "/srv/www"

def requestFor (target : String) : Request :=
  (httpparserSetUri httprequestCreate (ascii target)).getD httprequestCreate

private theorem httpparserSetUri_requestFor {target : String}
    (accepted : (httpparserSetUri httprequestCreate (ascii target)).isSome = true) :
    httpparserSetUri httprequestCreate (ascii target) = some (requestFor target) := by
  obtain ⟨request, isRequest⟩ := Option.isSome_iff_exists.mp accepted
  unfold requestFor
  rw [isRequest]
  rfl

theorem probes_inside_iff_encoded : (requestFor "/a%2F./b").path = ascii "/a/./b" ∧
      ∀ stat, ∀ probe ∈ (httpGetFileFullPath stat wwwServer.root
          (some (ascii "index.html")) (requestFor "/a%2F./b").path).probes,
        Inside wwwServer.root probe := by
  have accepted := httpparserSetUri_requestFor (show (httpparserSetUri httprequestCreate
      (ascii "/a%2F./b")).isSome = true by decide +kernel)
  have chain : Rewritten (fun _ _ => ⟨-1, []⟩) wwwServer.redirect
      (requestFor "/a%2F./b") (requestFor "/a%2F./b") := .refl _
  refine ⟨by decide +kernel, (probes_inside_iff (by decide) _ accepted chain).mpr ?_⟩
  exact lookupContained_of_noNul (httpparserSetUri_checked accepted)
    (by decide +kernel) (by decide +kernel)

/-- The target `/..%00x` is accepted, and `stat` is called for the parent of
the document root. -/
theorem probes_nul : httpparserSetUri httprequestCreate (ascii "/..%00x") =
        some (requestFor "/..%00x") ∧
      (httpGetFileFullPath (fun _ => some .regular) wwwServer.root none
        (requestFor "/..%00x").path).probes = [ascii "/srv/www/.."] ∧
      ¬ Inside wwwServer.root (ascii "/srv/www/..") := by
  decide +kernel

end CWebFramework.Http

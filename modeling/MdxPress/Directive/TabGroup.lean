import MdxPress.Fence.Tag
import MdxPress.Marker.Replace
import MdxPress.Name

/-!
# Tab groups

A group of tabs becomes a `<Tabs>` component with one `<TabItem>` for each tab.  The value of a tab
is unique in its group, and blocks of code without a language get the one its title stands for.

* `TabGroup.entries?` reads the inside of a group;
* `TabGroup.render` writes the component.
-/

namespace MdxPress

/-- One tab of a group. -/
structure TabEntry where
  title : Text
  value : Text
  content : Text
  deriving DecidableEq, Repr

namespace TabGroup

/-- The titles and bodies of the tabs among markers of `t`; none, when a tab is left open. -/
def bodies? (t : Text) : List Marker → Option (List (Text × Text))
  | [] => some []
  | [m] => if m.name = "tab".toList then none else some []
  | m :: k :: ms =>
    if m.name = "tab".toList then
      if k.closes "tab".toList then
        (bodies? t ms).map fun rest =>
          (((m.attribute? "title".toList).getD []).trim, t.slice m.stop k.start) :: rest
      else none
    else bodies? t (k :: ms)

/-- The values of tabs with the given titles, in order. -/
def values (titles : List Text) : List Text :=
  Name.claimAll [] (titles.zipIdx.map fun (title, i) => Name.tabValue title (i + 1))

/-- A tab with a value; its bare fences get the language its title stands for. -/
def entry (title body value : Text) : TabEntry :=
  let content :=
    match Language.ofTab? title with
    | some language => Text.tagBare language body
    | none => body
  ⟨title, value, content⟩

/-- The tabs in the inside of a group; none, when there are none or one is left open. -/
def entries? (t : Text) : Option (List TabEntry) :=
  (bodies? t t.markers).bind fun raw =>
    if raw.isEmpty then none
    else some (List.zipWith (fun p v => entry p.1 p.2 v) raw (values (raw.map (·.1))))

/-- One tab as a component. -/
def renderEntry (e : TabEntry) : Text :=
  "<TabItem value=\"".toList ++ e.value ++ "\" label=\"".toList ++ Text.replaceChar '"' ['\''] e.title
    ++ "\">\n\n".toList ++ e.content.trim ++ "\n\n</TabItem>".toList

/-- A group as a component. -/
def render (es : List TabEntry) : Text :=
  "<Tabs>\n".toList ++ Text.joinWith ['\n'] (es.map renderEntry) ++ "\n</Tabs>".toList

/-- The number of tabs that the inside of a group opens. -/
def declared (inner : Text) : Nat :=
  (inner.singles "tab".toList).length

end TabGroup
end MdxPress

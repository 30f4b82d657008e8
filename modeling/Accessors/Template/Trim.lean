import Accessors.Template.Node
import Accessors.Text.Blank

/-!
Trimming. A tag with a minus sign at a side takes the white space off the text next to it, also where that
text is at the end or the beginning of the body of another tag.
-/

namespace Accessors.Template

/-- Text without white space at its beginning. -/
def trimStart (text : String) : String :=
  String.ofList (text.toList.dropWhile Text.isBlank)

/-- A text as a node; there is none for no text. -/
def textNodes (text : String) : List Node :=
  if text.isEmpty then [] else [.text text]

/-- Trims the text at the end of some nodes, which are given last first. -/
def trimLast : List Node → List Node
  | .text text :: before => textNodes (Text.trimEnd text) ++ before
  | nodes => nodes

/-- Trims the end of some nodes, which are given last first, if asked to. -/
def trimLastIf (trimmed : Bool) (nodes : List Node) : List Node :=
  if trimmed then trimLast nodes else nodes

/-- The body of an arm with its end trimmed. -/
def Arm.trimEnd : Arm → Arm
  | .mk edges condition body => .mk edges condition (trimLast body.reverse).reverse

/-- Trims the end of the last of some arms, which are given last first. -/
def trimLastArm : List Arm → List Arm
  | arm :: before => arm.trimEnd :: before
  | [] => []

/-- What is trimmed around raw text. -/
def trimRaw (opening : Edges) (text : String) (closing : Edges) : String :=
  let text := if opening.right then trimStart text else text
  if closing.left then Text.trimEnd text else text

/-- Whether a node trims what stands before it. -/
def Node.trimsBefore : Node → Bool
  | .text _ => false
  | .super => false
  | .output edges _ => edges.left
  | .comment edges => edges.left
  | .raw opening _ _ => opening.left
  | .assign edges _ _ _ => edges.left
  | .insertion edges _ _ => edges.left
  | .library edges _ _ => edges.left
  | .parent edges _ => edges.left
  | .branch (.mk edges _ _ :: _) _ _ => edges.left
  | .branch [] _ _ => false
  | .loop opening _ _ _ _ _ _ => opening.left
  | .filtered opening _ _ _ => opening.left
  | .block opening _ _ _ => opening.left
  | .macroDef opening _ _ _ _ => opening.left
  | .leave edges => edges.left
  | .next edges => edges.left

/-- Whether a node trims what stands after it, given whether the one before does. -/
def Node.trimsAfter (before : Bool) : Node → Bool
  | .text _ => false
  | .super => before
  | .output edges _ => edges.right
  | .comment edges => edges.right
  | .raw _ _ closing => closing.right
  | .assign edges _ _ _ => edges.right
  | .insertion edges _ _ => edges.right
  | .library edges _ _ => edges.right
  | .parent edges _ => edges.right
  | .branch _ _ closing => closing.right
  | .loop _ _ _ _ _ _ closing => closing.right
  | .filtered _ _ _ closing => closing.right
  | .block _ _ _ closing => closing.right
  | .macroDef _ _ _ _ closing => closing.right
  | .leave edges => edges.right
  | .next edges => edges.right

/-- A body that was trimmed node by node, last node first, with its end trimmed if asked to. -/
def closeBody (trimmed : Bool) (nodes : List Node) : List Node := (trimLastIf trimmed nodes).reverse

/-- Arms that were trimmed one by one, last arm first, with the end of the last trimmed if asked to. -/
def closeArms (trimmed : Bool) (arms : List Arm) : List Arm :=
  (if trimmed then trimLastArm arms else arms).reverse

/-- Puts a trimmed text after some nodes, which are given last first. -/
def addText (trimNext : Bool) (text : String) (done : List Node) : List Node :=
  if trimNext then textNodes (trimStart text) ++ done else .text text :: done

mutual

/-- A node whose bodies are trimmed. The body for a loop without rounds stays as it is. -/
def Node.trimInside : Node → Node
  | .loop opening key value container body empty closing =>
      .loop opening key value container
        (closeBody closing.left (trimNodes opening.right [] body)) empty closing
  | .filtered opening filter body closing =>
      .filtered opening filter (closeBody closing.left (trimNodes opening.right [] body)) closing
  | .block opening name body closing =>
      .block opening name (closeBody closing.left (trimNodes opening.right [] body)) closing
  | .macroDef opening name params body closing =>
      .macroDef opening name params (closeBody closing.left (trimNodes opening.right [] body)) closing
  | .branch arms none closing => .branch (closeArms closing.left (trimArms [] arms)) none closing
  | .branch arms (some (.mk edges body)) closing =>
      .branch (closeArms edges.left (trimArms [] arms))
        (some (.mk edges (closeBody closing.left (trimNodes edges.right [] body)))) closing
  | .raw opening text closing => .raw opening (trimRaw opening text closing) closing
  | node => node

/-- Trims nodes one after the other. `trimNext` says that the node before asks for its right side to be
trimmed; `done` holds the nodes before, last first. -/
def trimNodes (trimNext : Bool) (done : List Node) : List Node → List Node
  | [] => done
  | .text text :: rest => trimNodes false (addText trimNext text done) rest
  | node :: rest =>
      trimNodes (node.trimsAfter trimNext) (node.trimInside :: trimLastIf node.trimsBefore done) rest

/-- Trims the arms of a branch one after the other. An arm's own tag trims the end of the arm before; `done`
holds the arms before, last first. -/
def trimArms (done : List Arm) : List Arm → List Arm
  | [] => done
  | .mk edges condition body :: rest =>
      trimArms (.mk edges condition (trimNodes edges.right [] body).reverse
        :: (if edges.left then trimLastArm done else done)) rest

end

def trimTemplate (nodes : List Node) : List Node := (trimNodes false [] nodes).reverse

end Accessors.Template

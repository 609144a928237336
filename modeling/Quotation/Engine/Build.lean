import Quotation.CallBuilder
import Quotation.Engine.Resolve

namespace Quotation

def buildCall (eng : Engine) (ev : Evaluator) (head : CallHead) (args : List CallArg)
    (env : FrameId) : Eval Tree :=
  resolve eng ev (head.template args) env none

end Quotation

import ColumnTypes.Text
namespace ColumnTypes

def version : Text := "0.1.0".toList

end ColumnTypes
